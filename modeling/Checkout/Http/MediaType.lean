/-!
# Media types

A media type names the format of a body: a type, a subtype, perhaps a suffix that names the format
underneath, and parameters. Parameters are checked for their form and then forgotten.
-/

namespace Checkout

/-- A media type without its parameters, as it is written. -/
structure MediaType where
  kind : List Char
  subtype : List Char
  suffix : Option (List Char)
  deriving DecidableEq

namespace MediaType

/-- A character of a name. -/
def isTokenChar (c : Char) : Bool := c.isAlphanum || "!#$%&'*+-.^_`|~".toList.contains c

/-- A character between the quotes of a value. -/
def isQuotedChar (c : Char) : Bool := 0x20 ≤ c.toNat && c.toNat ≠ 0x7F

/-! ### Parameters -/

/-- Where in a list of parameters a reader is. -/
inductive Place where
  /-- Before a parameter, if there is one; blanks may stand here. -/
  | before
  | name
  /-- Right behind the equals sign. -/
  | start
  | value
  /-- Right behind the opening quote; whatever stands here belongs to the value. -/
  | quote
  | quoted
  /-- Behind the closing quote; blanks may stand here. -/
  | behind

namespace Place

/-- The next place, unless the character must not stand here. -/
def next? (c : Char) : Place → Option Place
  | before => if c = ' ' then some before else if isTokenChar c then some name else none
  | name => if c = '=' then some start else if isTokenChar c then some name else none
  | start => if c = '"' then some quote else if isTokenChar c then some value else none
  | value => if c = ';' then some before else if isTokenChar c then some value else none
  | quote => if isQuotedChar c then some quoted else none
  | quoted => if c = '"' then some behind else if isQuotedChar c then some quoted else none
  | behind => if c = ';' then some before else if c = ' ' then some behind else none

/-- The parameters may end here. -/
def mayEnd : Place → Bool
  | before | start | value | behind => true
  | name | quote | quoted => false

end Place

/-- The text is a list of parameters, which may be empty. -/
def areParameters (text : List Char) : Bool :=
  (text.foldlM (fun place c => Place.next? c place) Place.before).any (·.mayEnd)

/-! ### The whole -/

/-- Parts a subtype at its last plus sign, unless nothing stands before that. -/
def splitSuffix (text : List Char) : List Char × Option (List Char) :=
  let suffix := (text.reverse.takeWhile (· ≠ '+')).reverse
  let subtype := text.take (text.length - suffix.length - 1)
  if suffix.length < text.length ∧ subtype ≠ [] then (subtype, some suffix) else (text, none)

/-- Reads a media type. Behind the subtype either everything ends or parameters follow. -/
def ofChars? (text : List Char) : Option MediaType :=
  let kind := text.takeWhile isTokenChar
  match text.dropWhile isTokenChar with
  | '/' :: rest =>
    let name := rest.takeWhile isTokenChar
    let (subtype, suffix) := splitSuffix name
    if kind = [] ∨ name = [] then none
    else
      match rest.dropWhile isTokenChar with
      | [] => some ⟨kind, subtype, suffix⟩
      | ';' :: parameters =>
        if areParameters parameters then some ⟨kind, subtype, suffix⟩ else none
      | _ => none
  | _ => none

/-- The name is the given one; case does not matter. -/
def isName (name : String) (text : List Char) : Bool := text.map Char.toLower = name.toList

/-- Bodies of this type are JSON: the subtype says so, or the suffix does. -/
def isJson (m : MediaType) : Bool :=
  isName "application" m.kind && (isName "json" m.subtype || m.suffix.any (isName "json"))

end MediaType

end Checkout
