import Checkout.Json.Number

/-!
# JSON values

A value and its written form: members in sequence, no white space, and in strings only those
characters escaped that must be.
-/

namespace Checkout

/-- A JSON value. -/
inductive Json where
  | null
  | bool (value : Bool)
  | number (value : Json.Number)
  | string (value : String)
  | array (items : List Json)
  | object (members : List (String × Json))

namespace Json

instance : Inhabited Json := ⟨.null⟩

/-- A natural number as a value. -/
def nat (n : Nat) : Json := .number (.ofNat n)

/-- The first member of a name. -/
def member? (j : Json) (name : String) : Option Json :=
  match j with
  | object members => (members.find? (·.1 = name)).map (·.2)
  | _ => none

mutual

/-- The value with each number written as what it is worth. A number too large to be worth anything
stays as it is. -/
def canonical : Json → Json
  | number n => .number (n.value?.elim n NumberValue.toNumber)
  | array items => .array (canonicalItems items)
  | object members => .object (canonicalMembers members)
  | j => j

/-- The items of an array, each of them canonical. -/
def canonicalItems : List Json → List Json
  | [] => []
  | j :: js => canonical j :: canonicalItems js

/-- The members of an object, each of them canonical. -/
def canonicalMembers : List (String × Json) → List (String × Json)
  | [] => []
  | (k, j) :: ms => (k, canonical j) :: canonicalMembers ms

end

/-! ### Writing -/

/-- A character of a string as it is written. -/
def escapeChar (c : Char) : List Char :=
  if c = '"' then ['\\', '"']
  else if c = '\\' then ['\\', '\\']
  else if c = '\x08' then ['\\', 'b']
  else if c = '\x0c' then ['\\', 'f']
  else if c = '\n' then ['\\', 'n']
  else if c = '\r' then ['\\', 'r']
  else if c = '\t' then ['\\', 't']
  else if c.toNat < 0x20 then '\\' :: 'u' :: Text.fixed 16 4 c.toNat
  else [c]

/-- A string as it is written. -/
def quoted (s : String) : List Char := '"' :: s.toList.flatMap escapeChar ++ ['"']

mutual

/-- The characters of a value. -/
def toChars : Json → List Char
  | null => "null".toList
  | bool true => "true".toList
  | bool false => "false".toList
  | number n => n.toChars
  | string s => quoted s
  | array items => '[' :: itemsToChars items ++ [']']
  | object members => '\x7b' :: membersToChars members ++ ['\x7d']

/-- The items of an array, separated by commas. -/
def itemsToChars : List Json → List Char
  | [] => []
  | [j] => toChars j
  | j :: js => toChars j ++ ',' :: itemsToChars js

/-- The members of an object, separated by commas. -/
def membersToChars : List (String × Json) → List Char
  | [] => []
  | [(k, j)] => quoted k ++ ':' :: toChars j
  | (k, j) :: ms => quoted k ++ ':' :: toChars j ++ ',' :: membersToChars ms

end

/-- The written form. -/
def toString (j : Json) : String := String.ofList j.toChars

instance : ToString Json := ⟨toString⟩

end Json

end Checkout
