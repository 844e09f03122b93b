import FleetCompose.Data.OrderedMap
import FleetCompose.Decimal.Shortest

/-!
# YAML values

The values that a configuration document may hold and that the manifest passes on. A
mapping is a list of entries in order; its keys are values too. `Fields` are the mappings
at the top of an entry or service, whose keys are texts.

Whether two keys are the same is decided by `Value.same`, which does not look at the order
of entries and takes the two zeros, and all NaNs, for one number.
-/

namespace FleetCompose.Yaml

/-- A number: an integer of 64 bits, signed or unsigned, or a floating point number. -/
inductive Number where
  | int (value : Int)
  | float (value : Binary64)
  deriving DecidableEq, Repr

/-- A YAML value. The name of a tag is kept without the exclamation mark in front. -/
inductive Value where
  | null
  | bool (value : Bool)
  | number (value : Number)
  | string (text : String)
  | sequence (items : List Value)
  | mapping (entries : List (Value × Value))
  | tagged (tag : String) (value : Value)
  deriving Inhabited

/-- The largest unsigned integer of 64 bits. -/
def maxInteger : Int := 18446744073709551615

/-- The smallest signed integer of 64 bits. -/
def minInteger : Int := -9223372036854775808

/-- How floating point numbers are written in YAML. -/
def floatLayout : Decimal.Layout := ⟨-4, 16, false⟩

namespace Number

/-- The written form of a floating point number. -/
def floatText (x : Binary64) : String :=
  if x.isNaN then ".nan"
  else if x.isInfinite then if x.negative then "-.inf" else ".inf"
  else floatLayout.writeFinite x

/-- The written form of a number. -/
def text : Number → String
  | .int value => toString value
  | .float value => floatText value

/-- Equality of numbers; an integer is never equal to a floating point number. -/
def same : Number → Number → Bool
  | .int a, .int b => a == b
  | .float a, .float b => a.sameNumber b
  | _, _ => false

end Number

namespace Value

/-- The text of a string value. -/
def asString? : Value → Option String
  | .string text => some text
  | _ => none

/-- The text of a string value, with or without tags. -/
def innerString? : Value → Option String
  | .string text => some text
  | .tagged _ value => innerString? value
  | _ => none

/-- The tag name of a written tag: one exclamation mark in front is dropped, unless the tag
is that mark alone. -/
def tagName (written : String) : String :=
  match written.toList with
  | '!' :: c :: cs => String.ofList (c :: cs)
  | _ => written

/-- Does some entry of a list satisfy `same`? -/
def anyEntry (same : Value × Value → Bool) : List (Value × Value) → Bool
  | [] => false
  | entry :: entries => same entry || anyEntry same entries

mutual

/-- Are two values the same? The order of entries does not matter. -/
def same : Value → Value → Bool
  | .null, .null => true
  | .bool a, .bool b => a == b
  | .number a, .number b => a.same b
  | .string a, .string b => a == b
  | .sequence a, .sequence b => sameItems a b
  | .mapping a, .mapping b => a.length == b.length && entriesIn a b
  | .tagged s a, .tagged t b => s == t && same a b
  | _, _ => false

def sameItems : List Value → List Value → Bool
  | [], [] => true
  | a :: as, b :: bs => same a b && sameItems as bs
  | _, _ => false

/-- Is every entry of the first list an entry of the second? -/
def entriesIn : List (Value × Value) → List (Value × Value) → Bool
  | [], _ => true
  | (key, value) :: rest, others =>
      anyEntry (fun other => same key other.1 && same value other.2) others &&
        entriesIn rest others

end

/-- Put an entry into a mapping: in the place of the entry with that key, or at the end. -/
def putEntry (key value : Value) : List (Value × Value) → List (Value × Value)
  | [] => [(key, value)]
  | (other, old) :: rest =>
      if other.same key then (other, value) :: rest
      else (other, old) :: putEntry key value rest

/-- The entry of a text key in a mapping. -/
def lookupText (key : String) : List (Value × Value) → Option Value
  | [] => none
  | (other, value) :: rest =>
      if other.asString? = some key then some value else lookupText key rest

/-- Does a mapping have the text as a key? -/
def hasTextKey (key : String) (entries : List (Value × Value)) : Bool :=
  entries.any fun entry => entry.1.asString? == some key

/-- The text that a template variable with this value stands for: the text of a scalar,
with or without a tag. Null, sequences and mappings have none. -/
def scalarText : Value → Option String
  | .string text => some text
  | .number value => some value.text
  | .bool value => some (if value then "true" else "false")
  | .tagged _ value => scalarText value
  | .null | .sequence _ | .mapping _ => none

mutual

/-- The first key that repeats an earlier key of the same mapping, in the order in which
the value is written. -/
def repeatedKey? : Value → Option Value
  | .sequence items => repeatedInItems? items
  | .mapping entries => repeatedInEntries? [] entries
  | .tagged _ value => repeatedKey? value
  | _ => none

def repeatedInItems? : List Value → Option Value
  | [] => none
  | item :: items => (repeatedKey? item).or (repeatedInItems? items)

def repeatedInEntries? (earlier : List Value) : List (Value × Value) → Option Value
  | [] => none
  | (key, value) :: entries =>
      (repeatedKey? key).or <|
        if earlier.any (fun other => other.same key) then some key
        else (repeatedKey? value).or (repeatedInEntries? (key :: earlier) entries)

end

end Value

end FleetCompose.Yaml

namespace FleetCompose

/-- Pass-through fields: values by name, in the order of declaration. -/
abbrev Fields := OrderedMap String Yaml.Value

end FleetCompose
