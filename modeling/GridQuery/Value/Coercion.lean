import GridQuery.Value

/-!
# Coercion of values into kinds

`Value.coerce` brings a value into the representation of a kind. Numbers of all
representations convert into integer kinds when they are whole and in range, into
doubles and into decimals. Enumerations take a declared name, or the ordinal of a
member. Everything else must match already.
-/

namespace GridQuery

/-- Why a value is not of a kind. -/
inductive ValueError where
  /-- The representation cannot stand for the kind at all. -/
  | mismatch (expected found : String)
  /-- The number does not fit. -/
  | outOfRange (value kind : String)
  /-- The enumeration has no such member. -/
  | unknownMember (member enumeration : String)
  /-- The text does not spell a value of the kind. -/
  | unreadable (text kind : String)
deriving DecidableEq, Repr

/-- The error in words. -/
def ValueError.message : ValueError → String
  | .mismatch expected found => "expected a " ++ expected ++ " value, got " ++ found
  | .outOfRange value kind => value ++ " does not fit into " ++ kind
  | .unknownMember member enumeration =>
      "`" ++ member ++ "` is not a member of enum " ++ enumeration
  | .unreadable text kind => "cannot parse `" ++ text ++ "` as " ++ kind

namespace Value

/-- Why a value of another representation is not of a kind. -/
def mismatch (v : Value) (k : Kind) : ValueError := .mismatch k.name v.variant

/-- Why a number is not of a kind. -/
def outOfRange (v : Value) (k : Kind) : ValueError := .outOfRange v.display k.name

/-- Why a number is not of any integer kind. -/
def notWhole (v : Value) : ValueError := .outOfRange v.display "an integer"

/-- The whole number of 128 bits that is closest to `n`. -/
def saturate (n : Int) : Int :=
  max (-170141183460469231731687303715884105728) (min n 170141183460469231731687303715884105727)

/-- The whole number of a numeric value: `none` for other values, an error for numbers
that are not whole. A double beyond 128 bits counts as the closest number of 128 bits,
which no kind has room for either. -/
def exactInteger (v : Value) : Except ValueError (Option Int) :=
  match v with
  | .float x =>
      match x.whole? with
      | some n => .ok (some (saturate n))
      | none => .error v.notWhole
  | .decimal d =>
      match d.whole? with
      | some n => .ok (some n)
      | none => .error v.notWhole
  | v => .ok v.integer?

/-- Coercion into an integer kind. -/
def coerceWhole (v : Value) (w : Width) : Except ValueError Value :=
  match v.exactInteger with
  | .error e => .error e
  | .ok none => .error (v.mismatch (.whole w))
  | .ok (some n) =>
      match Whole.ofInt? w n with
      | some n => .ok (.whole w n)
      | none => .error (v.outOfRange (.whole w))

/-- Coercion into doubles. An integer is rounded to the closest double. -/
def coerceFloat (v : Value) : Except ValueError Value :=
  match v with
  | .decimal d => .ok (.float d.toFloat)
  | v =>
      match v.integer? with
      | some n => .ok (.float (Binary64.ofInt n))
      | none => .error (v.mismatch .float)

/-- Coercion into decimals. -/
def coerceDecimal (v : Value) : Except ValueError Value :=
  let result? : Except ValueError (Option Decimal) :=
    match v with
    | .float x => .ok (Decimal.ofFloat? x)
    | v =>
        match v.integer? with
        | some n => .ok (Decimal.ofInt? n)
        | none => .error (v.mismatch .decimal)
  match result? with
  | .error e => .error e
  | .ok (some d) => .ok (.decimal d)
  | .ok none => .error (v.outOfRange .decimal)

/-- The member of an enumeration with a given name. -/
def namedMember (e : Enumeration) (name : String) : Except ValueError Value :=
  match e.ordinal? name with
  | some _ => .ok (.member name)
  | none => .error (.unknownMember name e.name)

/-- Coercion into an enumeration. -/
def coerceMember (v : Value) (e : Enumeration) : Except ValueError Value :=
  match v with
  | .member name | .text name => namedMember e name
  | v =>
      match v.integer? with
      | none => .error (v.mismatch (.enumeration e))
      | some n =>
          match (Whole.ofInt? .int64 n).bind e.member? with
          | some name => .ok (.member name)
          | none => .error (.unknownMember (Text.intString n) e.name)

/-- The value in the representation of a kind. -/
def coerce (v : Value) (k : Kind) : Except ValueError Value :=
  if v.matchesKind k then .ok v
  else
    match k with
    | .whole w => v.coerceWhole w
    | .float => v.coerceFloat
    | .decimal => v.coerceDecimal
    | .enumeration e => v.coerceMember e
    | .boolean | .text | .dateTime => .error (v.mismatch k)

end Value

end GridQuery
