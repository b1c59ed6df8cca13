import Casework.Backend.Dispatch

/-!
# Workers at one container engine

Tasks that are carried out at the same time share one engine. A build that succeeds binds its tag to the image of
its directory, and running a tag uses the image to which it is bound at that moment. Any worker may go on next,
with any answer to what it asks.
-/

namespace Casework

inductive EngineRequest where
  | build (tag directory : String)
  | run (image : String)
  deriving DecidableEq, Repr

/-- A container engine: what it takes a process for. Other processes are nothing to it. -/
structure Engine where
  request? : Invocation → Option EngineRequest

def Context.recipeDirectory (c : Context) (recipe : String) : String := Path.join c.recipesDir recipe

/-- The engine understands how the image of the task is built and run. -/
structure Engine.Serves (e : Engine) (c : Context) (t : Task) : Prop where
  build : e.request? (c.engineInvocation (Container.imageTag t.recipe)
      (Container.buildArgs (Container.imageTag t.recipe) (c.recipeDirectory t.recipe))) =
    some (.build (Container.imageTag t.recipe) (c.recipeDirectory t.recipe))
  run : e.request? (c.engineInvocation (Container.imageTag t.recipe)
      (Container.runArgs c.cwd (Container.imageTag t.recipe) t c.store c.containerOptions)) =
    some (.run (Container.imageTag t.recipe))

inductive Reply where
  | found (b : Bool)
  | capture (r : Capture)
  | ended (e : PluginEnd)

structure Workshop where
  images : NameMap String
  works : List Work
  /-- Who has run an image, the last one last, each with the directory of that image if there was one. -/
  used : List (Nat × Option String) := []

namespace Workshop

def start (c : Context) (images : NameMap String) (tasks : List Task) : Workshop := ⟨images, tasks.map c.dispatch, []⟩

variable (e : Engine) (x : Workshop)

def goOn (k : Nat) (w : Work) : Workshop := { x with works := x.works.set k w }

def bindTag (tag directory : String) : Workshop := { x with images := x.images.insert tag directory }

def useImage (k : Nat) (image : String) : Workshop := { x with used := x.used ++ [(k, x.images.find? image)] }

def serve (k : Nat) (r : Capture) : Option EngineRequest → Workshop
  | some (.build tag directory) =>
    match r with
    | .ok _ => x.bindTag tag directory
    | .error _ => x
  | some (.run image) => x.useImage k image
  | none => x

def step? (move : Nat × Reply) : Option Workshop :=
  match x.works[move.1]?, move.2 with
  | some (.check _ next), .found b => some (x.goOn move.1 (next b))
  | some (.process i next), .capture r => some ((x.goOn move.1 (next r)).serve move.1 r (e.request? i))
  | some (.call _ next), .ended p => some (x.goOn move.1 (next p))
  | _, _ => none

def follow? : Workshop → List (Nat × Reply) → Option Workshop
  | x, [] => some x
  | x, m :: ms => (x.step? e m).bind fun y => follow? y ms

end Workshop

end Casework
