import Casework.Backend.Engine
import Casework.Proofs.Host.Components

/-!
# The directory of a recipe

A recipe is named by a path of one component. The directory of the recipe is right below that of all recipes just if
this component is a name: the root, the directory itself and its parent are paths of one component too.
-/

namespace Casework

namespace Path

def entered (cs : List Component) : Component → List Component
  | .root => [.root]
  | .cur => cs
  | .parent => cs ++ [.parent]
  | .normal name => cs ++ [.normal name]

theorem components_join_one {p q : String} {c : Component} (hp : p ≠ "") (hq : components q = [c]) :
    components (join p q) = entered (components p) c := by
  by_cases habs : isAbsolute q = true
  · rw [join_of_isAbsolute habs, hq]
    obtain ⟨r, rfl⟩ := exists_root habs
    rw [components_root] at hq
    rw [← (List.cons.inj hq).1]
    rfl
  · rw [components_join hp (Bool.eq_false_iff.2 habs)]
    rw [components_eq, lead, if_neg habs] at hq
    split at hq
    · obtain ⟨hc, hrest⟩ := List.cons.inj hq
      have hnamed : named (segments q) = [] := hrest
      rw [← hc, hnamed, List.append_nil]
      rfl
    · have hnamed : named (segments q) = [c] := hq
      obtain ⟨s, _, hs⟩ := List.mem_filterMap.1 (hnamed ▸ List.mem_singleton.2 rfl : c ∈ named (segments q))
      rw [hnamed]
      -- a segment stands for a parent or a name
      unfold componentOf? at hs
      split at hs
      · cases hs
      split at hs
      · cases hs
        rfl
      · cases hs
        rfl

theorem below_iff {p q : String} {c : Component} (hq : components q = [c]) :
    (∃ name, components (join p q) = components p ++ [.normal name]) ↔ ∃ name, c = .normal name := by
  by_cases hp : p = ""
  · subst hp
    have hnil : components "" = [] := rfl
    rw [join_empty, hq, hnil]
    simp
  · rw [components_join_one hp hq]
    constructor
    · intro h
      obtain ⟨name, hname⟩ := h
      have hlast := congrArg List.getLast? hname
      have hlength := congrArg List.length hname
      rw [List.getLast?_concat] at hlast
      rw [List.length_append, List.length_singleton] at hlength
      cases c with
      | root => cases hlast
      | cur => exact absurd hlength (Nat.ne_of_lt (Nat.lt_succ_self _))
      | parent =>
        rw [entered, List.getLast?_concat] at hlast
        cases hlast
      | normal n => exact ⟨n, rfl⟩
    · intro h
      obtain ⟨name, rfl⟩ := h
      exact ⟨name, rfl⟩

end Path

namespace Context

theorem exists_component {recipe : String} (h : Container.isRecipeName recipe = true) :
    ∃ x, Path.components recipe = [x] := by
  unfold Container.isRecipeName at h
  rw [beq_iff_eq] at h
  exact List.length_eq_one_iff.1 h

/-- A recipe whose name is taken is looked for in its directory, and the engine is told to build that directory. The
directory is right below that of all recipes if and only if the component of the name is a proper name. Otherwise it is
the root, the directory of all recipes itself, or the parent of that. -/
theorem recipeDirectory_below_iff (c : Context) {recipe : String} (h : Container.isRecipeName recipe = true)
    (next : String → Work) :
    (∃ found built, c.buildWork recipe next = .check (.regular (Path.join (c.recipeDirectory recipe) "Dockerfile")) found ∧
      found true = .process (c.engineInvocation (Container.imageTag recipe)
        (Container.buildArgs (Container.imageTag recipe) (c.recipeDirectory recipe))) built) ∧
    ∃ x, Path.components recipe = [x] ∧
      ((∃ name, Path.components (c.recipeDirectory recipe) = Path.components c.recipesDir ++ [.normal name]) ↔
        ∃ name, x = .normal name) ∧
      (c.recipesDir ≠ "" →
        Path.components (c.recipeDirectory recipe) = Path.entered (Path.components c.recipesDir) x) := by
  obtain ⟨x, hx⟩ := exists_component h
  refine ⟨?_, x, hx, Path.below_iff hx, fun hdir => Path.components_join_one hdir hx⟩
  unfold buildWork
  rw [h]
  exact ⟨_, _, rfl, rfl⟩

def recipesContext : Context where
  store := "case.store"
  pluginDir := "plugins"
  scriptsDir := "scripts"
  options := some { dockerfilesDir := some "recipes" }

theorem parentRecipe_not_below :
    (∃ name, Path.components (recipesContext.recipeDirectory "plaso/.") =
      Path.components recipesContext.recipesDir ++ [.normal name]) ∧
    Container.isRecipeName ".." = true ∧
    Path.components (recipesContext.recipeDirectory "..") = [.normal "recipes", .parent] ∧
    ¬ ∃ name, Path.components (recipesContext.recipeDirectory "..") =
      Path.components recipesContext.recipesDir ++ [.normal name] := by
  have hplaso : Container.isRecipeName "plaso/." = true := by decide
  have hparent : Container.isRecipeName ".." = true := by decide
  obtain ⟨x, hx, hbelow, _⟩ := (recipesContext.recipeDirectory_below_iff hplaso fun tag => .finish (.ok tag)).2
  obtain ⟨y, hy, hbeside, hentered⟩ := (recipesContext.recipeDirectory_below_iff hparent fun tag => .finish (.ok tag)).2
  have hx' : x = .normal "plaso" := (List.cons.inj hx).1.symm
  have hy' : y = .parent := (List.cons.inj hy).1.symm
  refine ⟨hbelow.2 ⟨_, hx'⟩, hparent, ?_, ?_⟩
  · rw [hentered (by decide), hy']
    rfl
  · intro h
    obtain ⟨name, hname⟩ := hbeside.1 h
    rw [hy'] at hname
    cases hname

end Context

end Casework
