import Casework.Shell.Draft

/-!
# The grammar

Simple commands, pipelines, lists, and the compound commands. Words hold commands and commands hold
words, so all is read together, by recursion on a bound for the number of steps. One complete command
is read at a time, and what stands before an error is run.
-/

namespace Casework.Shell

def keywords : List String :=
  ["!", "case", "do", "done", "elif", "else", "esac", "fi", "for", "if", "in", "then", "until", "while",
    "\x7b", "\x7d"]

def closers : List String := ["do", "done", "elif", "else", "esac", "fi", "then", "\x7d"]

def Token.endsList : Token → Bool
  | .eof => true
  | .op s => s = ")" || s = ";;"
  | .keyword s => closers.contains s
  | _ => false

def Token.isOp (s : String) : Token → Bool
  | .op t => s = t
  | _ => false

def Token.isKeyword (s : String) : Token → Bool
  | .keyword t => s = t
  | _ => false

def specialBuiltins : List String :=
  [":", "break", "continue", "return", "exit", "export", "readonly", "set", "shift", "times", "trap", "unset",
    "eval", "exec", "."]

/-! ## Tokens without recursion -/

def readAs (t : Token) : Parse Token := fun r => .ok t { r with last := t }

def skipComment : Nat → Parse Unit
  | 0 => pure ()
  | fuel + 1 => do
    match ← nextChar with
    | none => pure ()
    | some '\n' => putBack (some '\n')
    | some _ => skipComment fuel

def doubled (c : Char) : Parse Token := do
  let d ← nextJoined
  if d = some c then readAs (.op (.ofList [c, c]))
  else
    putBack d
    readAs (.op (.singleton c))

def redirection (fd : Option Nat) (c : Char) : Parse Token := do
  let d ← nextJoined
  if c = '>' then
    match d with
    | some '>' => readAs (.redirect (fd.getD 1) .append)
    | some '|' => readAs (.redirect (fd.getD 1) .clobber)
    | some '&' => readAs (.redirect (fd.getD 1) .duplicate)
    | d =>
      putBack d
      readAs (.redirect (fd.getD 1) .output)
  else
    match d with
    | some '<' =>
      let e ← nextJoined
      if e = some '-' then readAs (.document (fd.getD 0) true)
      else
        putBack e
        readAs (.document (fd.getD 0) false)
    | some '&' => readAs (.redirect (fd.getD 0) .duplicate)
    | some '>' => readAs (.redirect (fd.getD 0) .readWrite)
    | d =>
      putBack d
      readAs (.redirect (fd.getD 0) .input)

/-! ## Parameters -/

def useOf? (c : Char) : Option Use :=
  [('\x7d', .value), ('-', .orElse), ('+', .ifSet), ('?', .orFail), ('=', .orAssign)].lookup c

def readUse (c : Option Char) : Parse (Use × Bool) := do
  match c with
  | some ':' =>
    let c ← nextJoined
    match c.bind useOf? with
    | some u => return (u, true)
    | none => return (.bad, true)
  | some c =>
    if c = '%' || c = '#' then
      let d ← nextJoined
      if d = some c then return (.trim (c = '%') true, false)
      else
        putBack d
        return (.trim (c = '%') false, false)
    else return ((useOf? c).getD .bad, false)
  | none => return (.bad, false)

def isDigitChar (c : Char) : Bool := c.isDigit

/-- The name of a parameter that begins with `c`, and the character behind it. One digit is enough where
there are no braces. -/
def readName (braces : Bool) (c : Char) : Parse (List Char × Option Char) := fun r =>
  if isNameStart c then
    let (name, c, r) := r.take isNameChar (some c)
    .ok (name, c) r
  else if braces then
    let (name, c, r) := r.take isDigitChar (some c)
    .ok (name, c) r
  else
    let (d, r) := r.nextJoined
    .ok ([c], d) r

def readParam (d : Draft) (braces : Bool) (c : Option Char) : Parse Draft := do
  match c with
  | none => return d.openParam "" .bad false
  | some c =>
    if c = '\x7d' then
      putBack (some c)
      return d.openParam "" .bad false
    else if isNameStart c || c.isDigit then
      let (name, next) ← readName braces c
      if !braces then
        putBack next
        return d.add (.param (.ofList name) .value false [])
      else finish d (.ofList name) next
    else
      let next ← nextJoined
      if !braces then
        putBack next
        return d.add (.param (.singleton c) .value false [])
      else if c = '#' then readLength d next
      else if isSpecialParam c then finish d (.singleton c) next
      else
        putBack next
        return d.openParam "" .bad false
where
  finish (d : Draft) (name : String) (next : Option Char) : Parse Draft := do
    let (use, colon) ← readUse next
    if use = .value && !colon then return d.add (.param name .value false [])
    else return d.openParam name use colon
  readLength (d : Draft) (c : Option Char) : Parse Draft := do
    match c with
    | some c =>
      if isNameStart c || c.isDigit then
        let (name, next) ← readName true c
        putBack next
        return d.openParam (.ofList name) (if next = some '\x7d' then .length else .bad) false
      else
        let next ← nextJoined
        if c = '\x7d' || next ≠ some '\x7d' then
          putBack next
          finish d "#" (some c)
        else
          putBack next
          return d.openParam (.singleton c) (if isSpecialParam c then .length else .bad) false
    | none => finish d "#" none

/-! ## Words and commands -/

def readCloseParen (d : Draft) : Parse Draft := do
  if 0 < d.level.parens then
    return { d with level := { d.level with parens := d.level.parens - 1 } }.addChar ')'
  else
    let c ← nextJoined
    if c = some ')' then return d.pop.closePiece
    else
      putBack c
      return d.addChar ')'

def backquoted (double : Bool) : Nat → List Char → Parse (List Char)
  | 0, acc => return acc.reverse
  | fuel + 1, acc => do
    match ← nextJoined with
    | none => fail "EOF in backquote substitution"
    | some '\x60' => return acc.reverse
    | some '\\' =>
      match ← nextChar with
      | none => fail "EOF in backquote substitution"
      | some c =>
        if c = '\\' || c = '\x60' || c = '$' || (double && c = '"') then backquoted double fuel (c :: acc)
        else backquoted double fuel (c :: '\\' :: acc)
    | some c =>
      if c = '\n' then newLine
      backquoted double fuel (c :: acc)

def Draft.finish (d : Draft) : Parse Unit := do
  if d.level.style = .arith then fail "Missing '))'"
  else if d.level.style ≠ .base && d.inLine then fail "Unterminated quoted string"
  else if d.level.braces ≠ 0 then fail "Missing '\x7d'"

def atLineStart (d : Draft) (c : Option Char) : Parse (Option Char) := fun r =>
  match d.setting with
  | .document last tabs =>
    let (c, r) := if tabs then Reader.dropTabs Reader.reach c r else (c, r)
    match r.behindLast? last c with
    | some r => .ok none r
    | none => .ok c (r.besideLast last c)
  | _ => .ok c r

def Draft.nextChar (d : Draft) : Parse (Option Char) :=
  if d.level.style = .single then Shell.nextChar else nextJoined

def Draft.token (d : Draft) (c : Option Char) : Parse Token := do
  d.finish
  if d.inLine then
    match c, d.descriptor? with
    | some '<', some fd => redirection fd '<'
    | some '>', some fd => redirection fd '>'
    | c, _ =>
      putBack c
      modify fun r => { r with lastWord := d.word }
      readAs (.word d.word d.quoted)
  else readAs (.word d.word d.quoted)

def keywordOf? (w : Word) (quoted : Bool) : Option String :=
  if quoted then none else (plainText? w).filter keywords.contains

def Reader.alias? (r : Reader) (w : Word) : Option (String × String) :=
  (plainText? w).bind fun n => if r.inUse.contains n then none else (r.aliases.find? n).map (n, ·)

def Reader.pushAlias (r : Reader) (name value : String) : Reader :=
  if value.isEmpty then r
  else
    { r with
      pushed := ⟨value.toList, name, value.toList.getLast?.any fun c => c = ' ' || c = '\t'⟩ :: r.pushed
      inUse := name :: r.inUse }

def announce (fd : Nat) (tabs : Bool) (w : Word) (quoted : Bool) : Parse Redirect := fun r =>
  .ok (.document fd r.documents.size)
    { r with
      announced := r.announced ++ [⟨r.documents.size, wordChars w, tabs, quoted⟩]
      documents := r.documents.push [] }

def within (text : List Char) {α : Type} (p : Parse α) : Parse α := fun r =>
  match p { r with text, line := 1, pushed := [], expect := {}, again := false, announced := [] } with
  | .ok a s => .ok a { r with documents := s.documents, again := false }
  | .error e s => .error e s

structure Parts where
  assigns : List (String × Word) := []
  words : List Word := []
  redirects : List Redirect := []

def Parts.command (p : Parts) (line : Nat) : Command :=
  .simple line p.assigns.reverse p.words.reverse p.redirects.reverse

def Command.withRedirects (c : Command) (line : Nat) (rs : List Redirect) : Command :=
  if rs.isEmpty then c
  else
    match c with
    | .subshell l b _ => .subshell l b rs
    | c => .redirected line c rs

def seqOf : Option Command → Command → Command
  | none, c => c
  | some a, c => .seq a c

mutual

def token : Nat → Parse Token
  | 0 => fail "too long"
  | fuel + 1 => do
    let e := (← get).expect
    tokenAs fuel e

def tokenAs : Nat → Expect → Parse Token
  | 0, _ => fail "too long"
  | fuel + 1, e => do
    let t ← rawToken fuel
    match t with
    | .newline =>
      if e.newline then
        readDocuments fuel
        tokenAs fuel e
      else
        expectNext {}
        return t
    | .word w quoted =>
      match if e.keyword then keywordOf? w quoted else none with
      | some k =>
        expectNext {}
        readAs (.keyword k)
      | none =>
        let r ← get
        match if r.expect.aliases && !quoted then r.alias? w else none with
        | some (name, value) =>
          set (r.pushAlias name value)
          tokenAs fuel e
        | none =>
          expectNext {}
          return t
    | t =>
      expectNext {}
      return t

def rawToken : Nat → Parse Token
  | 0 => fail "too long"
  | fuel + 1 => do
    let r ← get
    if r.again then
      set { r with again := false }
      return r.last
    else
      match ← nextJoined with
      | none => readAs .eof
      | some c =>
        if c = ' ' || c = '\t' then rawToken fuel
        else if c = '#' then
          skipComment Reader.reach
          rawToken fuel
        else if c = '\n' then
          newLine
          readAs .newline
        else if c = '&' || c = '|' || c = ';' then doubled c
        else if c = '(' || c = ')' then readAs (.op (.singleton c))
        else
          let (d, c) ← wordFrom fuel { isMark := r.expect.mark, level := { style := .base } } (some c)
          d.token c

def wordFrom : Nat → Draft → Option Char → Parse (Draft × Option Char)
  | 0, _, _ => fail "too long"
  | fuel + 1, d, c => do
    match c with
    | none => return (d, none)
    | some c =>
      match d.level.style.kind c with
      | .newline =>
        if d.level.style = .base && d.level.braces = 0 then return (d, some c)
        else
          newLine
          let next ← atLineStart d (← d.nextChar)
          wordFrom fuel (d.addChar c) next
      | .separator =>
        if d.level.braces = 0 then return (d, some c)
        else
          let d := d.addChar c
          wordFrom fuel d (← d.nextChar)
      | .dollar =>
        let d ← dollar fuel d
        wordFrom fuel d (← d.nextChar)
      | .backquote =>
        if d.isMark then
          let d := d.addChar c
          wordFrom fuel d (← d.nextChar)
        else
          let text ← backquoted d.level.double Reader.reach []
          let body ← within text (list fuel true)
          let d := d.add (.command (body.getD .skip))
          wordFrom fuel d (← d.nextChar)
      | .backslash =>
        match ← Shell.nextChar with
        | none => wordFrom fuel (d.add (.char '\\' true)) none
        | some b =>
          let d := d.backslashed b
          wordFrom fuel d (← d.nextChar)
      | .closeParen =>
        let d ← readCloseParen d
        wordFrom fuel d (← d.nextChar)
      | .openParen =>
        let d := { d with level := { d.level with parens := d.level.parens + 1 } }.addChar c
        wordFrom fuel d (← d.nextChar)
      | .plain =>
        let d := d.addChar c
        wordFrom fuel d (← d.nextChar)
      | .singleQuote =>
        let d := d.openSingle
        wordFrom fuel d (← d.nextChar)
      | .doubleQuote =>
        let d := d.openDouble
        wordFrom fuel d (← d.nextChar)
      | .endQuote =>
        let d := d.closeQuote c
        wordFrom fuel d (← d.nextChar)
      | .closeBrace =>
        let d := d.closeBrace
        wordFrom fuel d (← d.nextChar)

def dollar : Nat → Draft → Parse Draft
  | 0, _ => fail "too long"
  | fuel + 1, d => do
    let c ← nextJoined
    if d.isMark then
      putBack c
      return d.addChar '$'
    else
      match c with
      | some '(' =>
        let e ← nextJoined
        if e = some '(' then return d.openArith
        else
          putBack e
          let before ← modifyGet fun r => (r.announced, { r with announced := [], expect := {} })
          let body ← list fuel true
          if !(← token fuel).isOp ")" then expected (.op ")")
          modify fun r => { r with announced := before }
          return d.add (.command (body.getD .skip))
      | some '\x7b' => readParam d true (← nextJoined)
      | some c =>
        if isNameStart c || isSpecialParam c then readParam d false (some c)
        else
          putBack (some c)
          return d.addChar '$'
      | none => return d.addChar '$'

def readDocuments : Nat → Parse Unit
  | 0 => fail "too long"
  | fuel + 1 => do
    let r ← get
    match r.announced with
    | [] => pure ()
    | a :: rest =>
      set { r with announced := rest }
      let setting := Setting.document a.last a.tabs
      let level : Level := if a.quoted then { style := .single } else { style := .double, double := true }
      let d : Draft := { setting, level }
      let c ← if a.quoted then Shell.nextChar else nextJoined
      let c ← atLineStart d c
      let (d, _) ← wordFrom fuel d c
      d.finish
      modify fun r => { r with documents := r.documents.setIfInBounds a.number d.word }
      readDocuments fuel

/-- A list up to a token behind which no list goes on. It may be empty if it is `optional`. -/
def list : Nat → Bool → Parse (Option Command)
  | 0, _ => fail "too long"
  | fuel + 1, optional => listFrom fuel none optional

def listFrom : Nat → Option Command → Bool → Parse (Option Command)
  | 0, _, _ => fail "too long"
  | fuel + 1, before, mayEnd => do
    expectNext lineStart
    let t ← token fuel
    match t with
    | .eof =>
      readDocuments fuel
      modify fun r => { r with again := true, last := .eof }
      return before
    | t =>
      pushBack
      if mayEnd && t.endsList then return before
      else
        let c ← andOr fuel
        let t ← token fuel
        let c := if t.isOp "&" then .background c else c
        let all := some (seqOf before c)
        match t with
        | .eof =>
          readDocuments fuel
          modify fun r => { r with again := true, last := .eof }
          return all
        | .newline =>
          pushBack
          listFrom fuel all true
        | t =>
          if t.isOp "&" || t.isOp ";" then listFrom fuel all true
          else
            pushBack
            return all

def lineFrom : Nat → Option Command → Parse (Option (Option Command))
  | 0, _ => fail "too long"
  | fuel + 1, before => do
    expectNext anyCommand
    match ← token fuel with
    | .newline =>
      readDocuments fuel
      return some before
    | .eof =>
      readDocuments fuel
      modify fun r => { r with again := true, last := .eof }
      return before.map some
    | _ =>
      pushBack
      let c ← andOr fuel
      let t ← token fuel
      let c := if t.isOp "&" then .background c else c
      let all := some (seqOf before c)
      match t with
      | .eof =>
        readDocuments fuel
        modify fun r => { r with again := true, last := .eof }
        return some all
      | .newline =>
        pushBack
        lineFrom fuel all
      | t => if t.isOp "&" || t.isOp ";" then lineFrom fuel all else unexpected

def andOr : Nat → Parse Command
  | 0 => fail "too long"
  | fuel + 1 => do andOrFrom fuel (← pipeline fuel)

def andOrFrom : Nat → Command → Parse Command
  | 0, _ => fail "too long"
  | fuel + 1, c => do
    let t ← token fuel
    if t.isOp "&&" || t.isOp "||" then
      expectNext lineStart
      let d ← pipeline fuel
      andOrFrom fuel (if t.isOp "&&" then .andThen c d else .orElse c d)
    else
      pushBack
      return c

def pipeline : Nat → Parse Command
  | 0 => fail "too long"
  | fuel + 1 => do
    let negated := (← token fuel).isKeyword "!"
    if negated then expectNext anyCommand else pushBack
    let c ← command fuel
    let cs ← pipes fuel
    let c := if cs.isEmpty then c else .pipeline (c :: cs)
    return if negated then .not c else c

def pipes : Nat → Parse (List Command)
  | 0 => fail "too long"
  | fuel + 1 => do
    if (← token fuel).isOp "|" then
      expectNext lineStart
      let c ← command fuel
      return c :: (← pipes fuel)
    else
      pushBack
      return []

def command : Nat → Parse Command
  | 0 => fail "too long"
  | fuel + 1 => do
    let line := (← get).line
    match ← token fuel with
    | .keyword "if" => do
      let c ← branch fuel
      behindCompound fuel line c "fi"
    | .keyword "while" => loopOf fuel line false
    | .keyword "until" => loopOf fuel line true
    | .keyword "for" => forOf fuel line
    | .keyword "case" => caseOf fuel line
    | .op "(" => do
      let body ← list fuel false
      if !(← token fuel).isOp ")" then expected (.op ")")
      expectNext anyCommand
      return (Command.subshell line (body.getD .skip) []).withRedirects line (← redirects fuel)
    | .keyword "\x7b" => do
      let body ← list fuel false
      behindCompound fuel line (body.getD .skip) "\x7d"
    | .word .. | .redirect .. | .document .. => do
      pushBack
      simple fuel (← get).line {} true
    | _ => unexpected

def behindCompound : Nat → Nat → Command → String → Parse Command
  | 0, _, _, _ => fail "too long"
  | fuel + 1, line, c, word => do
    if !(← token fuel).isKeyword word then expected (.keyword word)
    expectNext anyCommand
    return c.withRedirects line (← redirects fuel)

def redirects : Nat → Parse (List Redirect)
  | 0 => fail "too long"
  | fuel + 1 => do
    match ← token fuel with
    | .redirect fd d => do
      let r ← target fuel fd d
      expectNext {}
      return r :: (← redirects fuel)
    | .document fd tabs => do
      let r ← mark fuel fd tabs
      return r :: (← redirects fuel)
    | _ => do
      pushBack
      return []

def target : Nat → Nat → Direction → Parse Redirect
  | 0, _, _ => fail "too long"
  | fuel + 1, fd, d => do
    match ← token fuel with
    | .word w _ => return .toward fd d w
    | _ => unexpected

def mark : Nat → Nat → Bool → Parse Redirect
  | 0, _, _ => fail "too long"
  | fuel + 1, fd, tabs => do
    expectNext { mark := true }
    match ← token fuel with
    | .word w quoted => announce fd tabs w quoted
    | _ => unexpected

def simple : Nat → Nat → Parts → Bool → Parse Command
  | 0, _, _, _ => fail "too long"
  | fuel + 1, line, p, start => do
    expectNext { aliases := start }
    match ← token fuel with
    | .word w _ =>
      match if start then assignment? w else none with
      | some a => simple fuel line { p with assigns := a :: p.assigns } true
      | none => simple fuel line { p with words := w :: p.words } false
    | .redirect fd d => do
      let r ← target fuel fd d
      simple fuel line { p with redirects := r :: p.redirects } start
    | .document fd tabs => do
      let r ← mark fuel fd tabs
      simple fuel line { p with redirects := r :: p.redirects } start
    | t =>
      match t.isOp "(", p.words, p.assigns.isEmpty && p.redirects.isEmpty with
      | true, [w], true => function fuel w
      | _, _, _ => do
        pushBack
        return p.command line

def function : Nat → Word → Parse Command
  | 0, _ => fail "too long"
  | fuel + 1, w => do
    if !(← token fuel).isOp ")" then expected (.op ")")
    match (plainText? w).filter fun n => isName n && !specialBuiltins.contains n with
    | none => fail "Bad function name"
    | some name => do
      expectNext lineStart
      return .function name (← command fuel)

def branch : Nat → Parse Command
  | 0 => fail "too long"
  | fuel + 1 => do
    let c ← list fuel false
    if !(← token fuel).isKeyword "then" then expected (.keyword "then")
    let yes ← list fuel false
    match ← token fuel with
    | .keyword "elif" => do
      let no ← branch fuel
      return .branch (c.getD .skip) (yes.getD .skip) (some no)
    | .keyword "else" => do
      let no ← list fuel false
      return .branch (c.getD .skip) (yes.getD .skip) (some (no.getD .skip))
    | _ => do
      pushBack
      return .branch (c.getD .skip) (yes.getD .skip) none

def loopOf : Nat → Nat → Bool → Parse Command
  | 0, _, _ => fail "too long"
  | fuel + 1, line, until_ => do
    let c ← list fuel false
    if !(← token fuel).isKeyword "do" then expected (.keyword "do")
    let b ← list fuel false
    behindCompound fuel line (.loop until_ (c.getD .skip) (b.getD .skip)) "done"

def forOf : Nat → Nat → Parse Command
  | 0, _ => fail "too long"
  | fuel + 1, line => do
    match ← token fuel with
    | .word w quoted =>
      match if quoted then none else (plainText? w).filter isName with
      | none => fail "Bad for loop variable"
      | some name => do
        expectNext lineStart
        let t ← token fuel
        let items ← if t.isKeyword "in" then do
            let ws ← wordList fuel
            match (← get).last with
            | .newline => pure (some ws)
            | .op ";" => pure (some ws)
            | _ => unexpected
          else do
            if !t.isOp ";" then pushBack
            pure none
        expectNext lineStart
        if !(← token fuel).isKeyword "do" then expected (.keyword "do")
        let b ← list fuel false
        behindCompound fuel line (.forEach line name items (b.getD .skip)) "done"
    | _ => fail "Bad for loop variable"

def wordList : Nat → Parse (List Word)
  | 0 => fail "too long"
  | fuel + 1 => do
    match ← token fuel with
    | .word w _ => return w :: (← wordList fuel)
    | _ => return []

def caseOf : Nat → Nat → Parse Command
  | 0, _ => fail "too long"
  | fuel + 1, line => do
    match ← token fuel with
    | .word w _ => do
      expectNext lineStart
      if !(← token fuel).isKeyword "in" then expected (.keyword "in")
      let as ← arms fuel
      expectNext anyCommand
      return (Command.select line w as).withRedirects line (← redirects fuel)
    | _ => expected (.word [] false)

def arms : Nat → Parse (List (List Word × Command))
  | 0 => fail "too long"
  | fuel + 1 => do
    expectNext { keyword := true, newline := true }
    let t ← token fuel
    if t.isKeyword "esac" then return []
    else
      if t.isOp "(" then
        let _ ← token fuel
      let ps ← patterns fuel
      if !(← get).last.isOp ")" then expected (.op ")")
      let b ← list fuel true
      expectNext { keyword := true, newline := true }
      let t ← token fuel
      if t.isKeyword "esac" then return [(ps, b.getD .skip)]
      else if t.isOp ";;" then return (ps, b.getD .skip) :: (← arms fuel)
      else expected (.op ";;")

def patterns : Nat → Parse (List Word)
  | 0 => fail "too long"
  | fuel + 1 => do
    let w := (← get).lastWord
    if (← token fuel).isOp "|" then
      let _ ← token fuel
      return w :: (← patterns fuel)
    else return [w]

end

/-- The next commands of a script, up to the end of a line; nothing if the text is at its end. A longer text may be
read for longer. -/
def nextCommand : Parse (Option (Option Command)) := do
  modify fun r => { r with again := false, expect := {}, announced := [] }
  let r ← get
  lineFrom (Reader.reach + r.text.length) none

def wholeText : Parse Word := do
  let c ← nextJoined
  let (d, _) ← wordFrom Reader.reach { setting := .text, level := { style := .double, double := true } } c
  d.finish
  return d.word

end Casework.Shell
