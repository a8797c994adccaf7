import Checkout.Json.Token
import Checkout.Json.Value

/-!
# Drafts of JSON values

A draft is what a text says up to its first fault. Where the text breaks off, the containers that
were open stay unclosed, and a member without value has a fault in its place. So the faults of a
text can be weighed against each other in the sequence in which they occur: a reader that goes
through a draft from first to last meets them in that sequence.

`Draft.read` builds the draft of the first value in a list of tokens, with its own stack of open
containers, so that a text may be nested to any depth.
-/

namespace Checkout.Json

/-- A JSON value up to the first fault of its text. -/
inductive Draft where
  | null
  | bool (value : Bool)
  | number (value : Number)
  /-- A string without content is one that is ill-formed inside. -/
  | string (content : Option String)
  | array (items : List Draft) (closed : Bool)
  | object (members : List (Option String × Draft)) (closed : Bool)
  /-- The text is broken here. -/
  | fault

namespace Draft

instance : Inhabited Draft := ⟨.fault⟩

/-- Nothing inside is broken. -/
def isIntact : Draft → Bool
  | .fault => false
  | .array _ closed | .object _ closed => closed
  | _ => true

/-! ### Building -/

/-- An open container: its items or members so far, last first, and for a member whose value is still
to come its key. -/
inductive Frame where
  | array (items : List Draft)
  | object (members : List (Option String × Draft))
  | member (members : List (Option String × Draft)) (key : Option String)

namespace Frame

/-- Puts a value into the container. -/
def push (value : Draft) : Frame → Frame
  | .array items => .array (value :: items)
  | .object members => .object members
  | .member members key => .object ((key, value) :: members)

/-- The container where the text breaks off. -/
def unclosed : Frame → Draft
  | .array items => .array items.reverse false
  | .object members => .object members.reverse false
  | .member members key => .object ((key, .fault) :: members).reverse false

end Frame

/-- The draft of a text that breaks off inside the given container and those around it. -/
def breakOffIn (inner : Draft) : List Frame → Draft
  | [] => inner
  | f :: fs => breakOffIn (f.push inner).unclosed fs

/-- The draft of a text that breaks off inside the open containers. -/
def breakOff : List Frame → Draft
  | [] => .fault
  | f :: fs => breakOffIn f.unclosed fs

/-- What is expected next. -/
inductive Expectation where
  | value
  | valueOrClose
  | key
  | keyOrClose
  | colon
  | commaOrClose

/-- What a token leads to: the whole value is there, or something else is expected inside other open
containers, or the token must not stand here. -/
inductive Step where
  | whole (value : Draft)
  | next (e : Expectation) (frames : List Frame)
  | fault

namespace Step

/-- A complete value is the whole, or it belongs to an open container. -/
def complete (value : Draft) : List Frame → Step
  | [] => .whole value
  | f :: fs => .next .commaOrClose (f.push value :: fs)

/-- A token at the place of a value. -/
def begin (frames : List Frame) : Token → Step
  | .null => complete .null frames
  | .bool b => complete (.bool b) frames
  | .number n => complete (.number n) frames
  | .string s => complete (.string s) frames
  | .openArray => .next .valueOrClose (.array [] :: frames)
  | .openObject => .next .keyOrClose (.object [] :: frames)
  | _ => .fault

/-- A token where something is expected inside open containers. -/
def of (e : Expectation) (t : Token) (frames : List Frame) : Step :=
  match e, t, frames with
  | .valueOrClose, .closeArray, .array items :: fs => complete (.array items.reverse true) fs
  | .value, _, _ | .valueOrClose, _, _ => begin frames t
  | .keyOrClose, .closeObject, .object members :: fs =>
    complete (.object members.reverse true) fs
  | .keyOrClose, .string key, .object members :: fs
  | .key, .string key, .object members :: fs => .next .colon (.member members key :: fs)
  | .colon, .colon, _ => .next .value frames
  | .commaOrClose, .comma, .array _ :: _ => .next .value frames
  | .commaOrClose, .comma, .object _ :: _ => .next .key frames
  | .commaOrClose, .closeArray, .array items :: fs => complete (.array items.reverse true) fs
  | .commaOrClose, .closeObject, .object members :: fs =>
    complete (.object members.reverse true) fs
  | _, _, _ => .fault

end Step

/-- Builds the first value; gives it with the tokens behind it. After a fault there are none. -/
def build (e : Expectation) (frames : List Frame) : List Token → Draft × List Token
  | [] => (breakOff frames, [])
  | t :: ts =>
    match Step.of e t frames with
    | .whole value => (value, ts)
    | .next e frames => build e frames ts
    | .fault => (breakOff frames, [])

/-- The draft of the first value of a text, and whether the text has nothing behind it. -/
def read (text : List Symbol) : Draft × Bool :=
  let (draft, rest) := build .value [] (tokens text)
  (draft, rest.isEmpty)

/-! ### Values as drafts -/

mutual

/-- A value as a draft. -/
def ofJson : Json → Draft
  | .null => .null
  | .bool b => .bool b
  | .number n => .number n
  | .string s => .string (some s)
  | .array items => .array (ofItems items) true
  | .object members => .object (ofMembers members) true

/-- The items of an array as drafts. -/
def ofItems : List Json → List Draft
  | [] => []
  | j :: js => ofJson j :: ofItems js

/-- The members of an object as drafts. -/
def ofMembers : List (String × Json) → List (Option String × Draft)
  | [] => []
  | (k, j) :: ms => (some k, ofJson j) :: ofMembers ms

end

mutual

/-- The value of a draft without faults. -/
def toJson? : Draft → Option Json
  | .null => some .null
  | .bool b => some (.bool b)
  | .number n => some (.number n)
  | .string s => s.map .string
  | .array items closed => if closed then (toItems? items).map .array else none
  | .object members closed => if closed then (toMembers? members).map .object else none
  | .fault => none

/-- The items of an array of drafts without faults. -/
def toItems? : List Draft → Option (List Json)
  | [] => some []
  | d :: ds => do return (← toJson? d) :: (← toItems? ds)

/-- The members of an object of drafts without faults. -/
def toMembers? : List (Option String × Draft) → Option (List (String × Json))
  | [] => some []
  | (k, d) :: ms => do return (← k, ← toJson? d) :: (← toMembers? ms)

end

end Draft

/-- Reads a text that is one JSON value. -/
def ofString? (s : String) : Option Json :=
  match Draft.read (s.toList.map some) with
  | (draft, true) => draft.toJson?
  | (_, false) => none

end Checkout.Json
