import GridQuery.Text.Pieces

/-!
# Environment variables in texts

A settings text can name environment variables as `$` and the name in braces.
`Environment.expand` puts the values of those that are set in place of their names;
the others stay as they are written.

Every mention is looked up where it stands in the text as written. Its value then
replaces all mentions of the variable in the text as it has become, those inside
values put in earlier too.
-/

namespace GridQuery

/-- The variables that are set, as pairs of a name and a value. -/
structure Environment where
  pairs : List (String × String)
deriving DecidableEq, Repr

namespace Environment

/-! ## Variables -/

/-- What follows `front` in a text that begins with it. -/
def after? : (front s : List Char) → Option (List Char)
  | [], s => some s
  | _ :: _, [] => none
  | c :: front, d :: s => if c = d then after? front s else none

/-- The value of a variable. A variable is kept as one line of its name, an equals
sign and its value, and is found by what its line begins with. -/
def value? (env : Environment) (name : List Char) : Option (List Char) :=
  env.pairs.findSome? fun v => after? (name ++ ['=']) (v.1.toList ++ '=' :: v.2.toList)

/-- The value of a variable as a string. -/
def get? (env : Environment) (name : String) : Option String :=
  (env.value? name.toList).map String.ofList

/-- The environment with a variable set. -/
def set (env : Environment) (name value : String) : Environment :=
  ⟨(name, value) :: env.pairs.filter fun v => v.1 != name⟩

/-! ## Mentions -/

/-- A variable as a text mentions it. -/
def mention (name : List Char) : List Char := '$' :: '\x7b' :: name ++ ['\x7d']

/-- The name of the variable that a text mentions at its front: everything up to the
next closing brace. -/
def mentioned? : List Char → Option (List Char)
  | '$' :: '\x7b' :: rest =>
      let name := rest.takeWhile (· ≠ '\x7d')
      if name.isEmpty || name.length = rest.length then none else some name
  | _ => none

/-- The names of the variables that a text mentions, from left to right. Mentions do
not overlap; `skip` characters still belong to the last one. -/
def mentions : (skip : Nat) → List Char → List (List Char)
  | _, [] => []
  | skip + 1, _ :: rest => mentions skip rest
  | 0, c :: rest =>
      match mentioned? (c :: rest) with
      | some name => name :: mentions (name.length + 2) rest
      | none => mentions 0 rest

/-! ## Expansion -/

/-- The text with `new` in place of every `old`, from left to right; `skip`
characters still belong to the last one. -/
def replaceAll (old new : List Char) : (skip : Nat) → List Char → List Char
  | _, [] => []
  | skip + 1, _ :: rest => replaceAll old new skip rest
  | 0, c :: rest =>
      if old.isPrefixOf (c :: rest) then new ++ replaceAll old new (old.length - 1) rest
      else c :: replaceAll old new 0 rest

/-- The text with the value of one variable in place of its mentions, if it is
set. -/
def substitute (env : Environment) (s name : List Char) : List Char :=
  match env.value? name with
  | none => s
  | some value => replaceAll (mention name) value 0 s

/-- The text with the values of variables in place of their mentions. -/
def expand (env : Environment) (s : List Char) : List Char :=
  (mentions 0 s).foldl env.substitute s

end Environment

end GridQuery
