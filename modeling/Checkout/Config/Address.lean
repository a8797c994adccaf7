import Checkout.Text.Digits

/-!
# Socket addresses

An address of the internet protocol, of version 4 or 6, with a port. Version 4 is written
`a.b.c.d:port`, version 6 `[groups]:port` or `[groups%scope]:port`. The written form is canonical: the
longest run of at least two zero groups is shortened to `::`, the first of several, and an address
that stands for one of version 4 ends in its four parts.
-/

namespace Checkout

/-- An address of version 4: four bytes. -/
structure Ipv4 where
  a : Nat
  b : Nat
  c : Nat
  d : Nat
  deriving DecidableEq

/-- A socket address. An address of version 6 has eight groups of 16 bits. -/
inductive SocketAddress where
  | v4 (ip : Ipv4) (port : Nat)
  | v6 (groups : List Nat) (scope : Nat) (port : Nat)
  deriving DecidableEq

namespace SocketAddress

/-! ### Reading -/

/-- Passes one character. -/
def char? (c : Char) : List Char → Option (List Char)
  | [] => none
  | d :: cs => if d = c then some cs else none

/-- Reads all digits that follow as a number below the bound. At least one digit is needed; at most
`most` are allowed. -/
def number? (base bound most : Nat) (leadingZeros : Bool) (cs : List Char) :
    Option (Nat × List Char) :=
  let run := cs.takeWhile fun c => (Text.digitOf? base c).isSome
  if run.isEmpty ∨ most < run.length ∨ (!leadingZeros ∧ run.head? = some '0' ∧ 1 < run.length) then
    none
  else
    (Text.ofDigitsBelow? base bound run).map
      (·, cs.dropWhile fun c => (Text.digitOf? base c).isSome)

/-- Reads a byte of an address of version 4. -/
def byte? : List Char → Option (Nat × List Char) := number? 10 256 3 false

/-- Reads an address of version 4. -/
def ipv4? (cs : List Char) : Option (Ipv4 × List Char) := do
  let (a, cs) ← byte? cs
  let (b, cs) ← byte? (← char? '.' cs)
  let (c, cs) ← byte? (← char? '.' cs)
  let (d, cs) ← byte? (← char? '.' cs)
  return (⟨a, b, c, d⟩, cs)

/-- Reads a number of any length below the bound. -/
def longNumber? (bound : Nat) (cs : List Char) : Option (Nat × List Char) :=
  number? 10 bound cs.length true cs

/-- Reads a colon and a port. -/
def port? (cs : List Char) : Option (Nat × List Char) := do longNumber? UInt16.size (← char? ':' cs)

/-- Passes the colon that separates a group from the one before it, unless it is the first. -/
def separator? (isFirst : Bool) (cs : List Char) : Option (List Char) :=
  if isFirst then some cs else char? ':' cs

/-- Reads up to `room` groups separated by colons. Where two are left, an address of version 4 may
stand for them and ends the groups; it is told as the second component. -/
def groups (isFirst : Bool) : (room : Nat) → List Char → List Nat × Bool × List Char
  | 0, cs => ([], false, cs)
  | room + 1, cs =>
    match (separator? isFirst cs).bind fun cs => if 0 < room then ipv4? cs else none with
    | some (ip, rest) => ([ip.a * 256 + ip.b, ip.c * 256 + ip.d], true, rest)
    | none =>
      match (separator? isFirst cs).bind (number? 16 65536 4 true) with
      | none => ([], false, cs)
      | some (g, rest) =>
        let (gs, endsInIpv4, rest) := groups false room rest
        (g :: gs, endsInIpv4, rest)

/-- Reads an address of version 6: eight groups, or fewer with `::` in one place. -/
def ipv6? (cs : List Char) : Option (List Nat × List Char) := do
  let (head, endsInIpv4, cs) := groups true 8 cs
  if head.length = 8 then return (head, cs)
  if endsInIpv4 then none
  let cs ← char? ':' (← char? ':' cs)
  let (tail, _, cs) := groups true (8 - (head.length + 1)) cs
  return (head ++ List.replicate (8 - head.length - tail.length) 0 ++ tail, cs)

/-- Reads an address of version 4 with its port. -/
def v4? (cs : List Char) : Option (SocketAddress × List Char) := do
  let (ip, cs) ← ipv4? cs
  let (port, cs) ← port? cs
  return (.v4 ip port, cs)

/-- Reads the scope of an address of version 6; without one it is zero. -/
def scope? (cs : List Char) : Option (Nat × List Char) :=
  match char? '%' cs with
  | some cs => longNumber? UInt32.size cs
  | none => some (0, cs)

/-- Reads an address of version 6 with its port. -/
def v6? (cs : List Char) : Option (SocketAddress × List Char) := do
  let (groups, cs) ← ipv6? (← char? '[' cs)
  let (scope, cs) ← scope? cs
  let (port, cs) ← port? (← char? ']' cs)
  return (.v6 groups scope port, cs)

/-- Reads a text that is an address and nothing else. -/
def ofString? (s : String) : Option SocketAddress :=
  match v4? s.toList <|> v6? s.toList with
  | some (a, []) => some a
  | _ => none

/-! ### Writing -/

/-- A number in hexadecimal without leading zeros. -/
def hex (n : Nat) : String := String.ofList (Nat.toDigits 16 n)

/-- Groups separated by colons. -/
def colons (groups : List Nat) : String := String.intercalate ":" (groups.map hex)

/-- An address of version 4. -/
def ipv4Text (ip : Ipv4) : String := s!"{ip.a}.{ip.b}.{ip.c}.{ip.d}"

/-- The longest run of zeros in a list whose first element has the number `index`: where it begins
and how long it is. `run` is the length of the run of zeros that ends before the list, `best` the
longest run so far. Of equally long runs the first counts. -/
def longestZeros (index run : Nat) (best : Nat × Nat) : List Nat → Nat × Nat
  | [] => best
  | g :: gs =>
    if g = 0 then
      longestZeros (index + 1) (run + 1)
        (if best.2 < run + 1 then (index - run, run + 1) else best) gs
    else longestZeros (index + 1) 0 best gs

/-- An address of version 6. -/
def ipv6Text (groups : List Nat) : String :=
  match groups with
  | [0, 0, 0, 0, 0, 0xffff, g, h] =>
    s!"::ffff:{ipv4Text ⟨g / 256, g % 256, h / 256, h % 256⟩}"
  | _ =>
    let (start, length) := longestZeros 0 0 (0, 0) groups
    if 1 < length then
      colons (groups.take start) ++ "::" ++ colons (groups.drop (start + length))
    else colons groups

/-- The written form; a scope of zero is left out. -/
def toString : SocketAddress → String
  | .v4 ip port => s!"{ipv4Text ip}:{port}"
  | .v6 groups scope port =>
    if scope = 0 then s!"[{ipv6Text groups}]:{port}" else s!"[{ipv6Text groups}%{scope}]:{port}"

instance : ToString SocketAddress := ⟨toString⟩

end SocketAddress

end Checkout
