import Mathlib.Data.List.Basic
import Mathlib.Tactic.Common

/-!
# Socket addresses and their text form

`SocketAddr` of the standard library with its `Display` and `FromStr`. An address travels
inside the messages as text, so both directions are modelled on characters the way the
standard library writes and reads them: an IPv6 address compresses its longest run of zero
groups, an IPv4-mapped one shows its last four bytes in decimal, and the flow label is not
part of the text.

A reader takes the characters left and returns what it has read with the characters after
it; on `none` the parser stays where it was.
-/
namespace Rndz.Net

structure Ipv4Addr where
  a : UInt8
  b : UInt8
  c : UInt8
  d : UInt8
  deriving DecidableEq, Repr

/-- The eight 16-bit groups of an IPv6 address. -/
structure Ipv6Addr where
  segments : List UInt16
  eight : segments.length = 8
  deriving DecidableEq, Repr

structure SocketAddrV4 where
  ip : Ipv4Addr
  port : UInt16
  deriving DecidableEq, Repr

structure SocketAddrV6 where
  ip : Ipv6Addr
  port : UInt16
  flowinfo : UInt32
  scopeId : UInt32
  deriving DecidableEq, Repr

inductive SocketAddr where
  | v4 (addr : SocketAddrV4)
  | v6 (addr : SocketAddrV6)
  deriving DecidableEq, Repr

/-- `0.0.0.0:0` -/
def SocketAddr.unspecified : SocketAddr := .v4 ⟨⟨0, 0, 0, 0⟩, 0⟩

/-- An address of a local network, for concrete runs. -/
def host (n : UInt8) : SocketAddr := .v4 ⟨⟨10, 0, 0, n⟩, 5000⟩

/-- What the text form keeps of an address. -/
def SocketAddr.withoutFlowinfo : SocketAddr → SocketAddr
  | .v4 a => .v4 a
  | .v6 a => .v6 { a with flowinfo := 0 }

/-- The first two bytes, or the last two, as a group of an IPv6 address. -/
def group (hi lo : UInt8) : UInt16 := UInt16.ofNat (hi.toNat * 256 + lo.toNat)

/-! ## Display -/

def Ipv4Addr.display (ip : Ipv4Addr) : List Char :=
  Nat.toDigits 10 ip.a.toNat ++ '.' :: (Nat.toDigits 10 ip.b.toNat ++
    '.' :: (Nat.toDigits 10 ip.c.toNat ++ '.' :: Nat.toDigits 10 ip.d.toNat))

/-- `::ffff:a.b.c.d` -/
def Ipv6Addr.toIpv4Mapped (ip : Ipv6Addr) : Option Ipv4Addr :=
  match ip.segments with
  | [0, 0, 0, 0, 0, 0xffff, x, y] =>
    some ⟨(x.toNat / 256).toUInt8, (x.toNat % 256).toUInt8,
      (y.toNat / 256).toUInt8, (y.toNat % 256).toUInt8⟩
  | _ => none

/-- A run of zero groups. -/
structure Span where
  start : Nat
  len : Nat

/-- The first of the longest runs of zeros among the groups `segments`, which stand from
index `i` on; `current` is the run that ends just before them. -/
def longestZeros (longest current : Span) (i : Nat) : List UInt16 → Span
  | [] => longest
  | segment :: rest =>
    if segment = 0 then
      let current : Span := ⟨if current.len = 0 then i else current.start, current.len + 1⟩
      longestZeros (if current.len > longest.len then current else longest) current (i + 1) rest
    else
      longestZeros longest ⟨0, 0⟩ (i + 1) rest

/-- Groups after the first, each behind its colon. -/
def displayTail (chunk : List UInt16) : List Char :=
  chunk.flatMap fun segment => ':' :: Nat.toDigits 16 segment.toNat

/-- `fmt_subslice`: groups with colons between them. -/
def displayGroups : List UInt16 → List Char
  | [] => []
  | first :: tail => Nat.toDigits 16 first.toNat ++ displayTail tail

def Ipv6Addr.display (ip : Ipv6Addr) : List Char :=
  match ip.toIpv4Mapped with
  | some ipv4 => "::ffff:".toList ++ ipv4.display
  | none =>
    let zeroes := longestZeros ⟨0, 0⟩ ⟨0, 0⟩ 0 ip.segments
    if zeroes.len > 1 then
      displayGroups (ip.segments.take zeroes.start) ++ ':' :: ':' ::
        displayGroups (ip.segments.drop (zeroes.start + zeroes.len))
    else
      displayGroups ip.segments

def SocketAddr.display : SocketAddr → List Char
  | .v4 a => a.ip.display ++ ':' :: Nat.toDigits 10 a.port.toNat
  | .v6 a =>
    if a.scopeId = 0 then
      '[' :: (a.ip.display ++ ']' :: ':' :: Nat.toDigits 10 a.port.toNat)
    else
      '[' :: (a.ip.display ++ '%' :: (Nat.toDigits 10 a.scopeId.toNat ++
        ']' :: ':' :: Nat.toDigits 10 a.port.toNat))

def SocketAddr.toString (a : SocketAddr) : String := String.ofList a.display

/-! ## Parsing -/

/-- `char::to_digit` -/
def toDigit (radix : Nat) (c : Char) : Option Nat :=
  let digit :=
    if '0' ≤ c ∧ c ≤ '9' then some (c.toNat - '0'.toNat)
    else if 'a' ≤ c ∧ c ≤ 'z' then some (c.toNat - 'a'.toNat + 10)
    else if 'A' ≤ c ∧ c ≤ 'Z' then some (c.toNat - 'A'.toNat + 10)
    else none
  digit.filter (· < radix)

/-- The digits at the front. -/
def readDigits (radix : Nat) : List Char → List Nat × List Char
  | [] => ([], [])
  | c :: cs =>
    match toDigit radix c with
    | some d => (d :: (readDigits radix cs).1, (readDigits radix cs).2)
    | none => ([], c :: cs)

def digitsValue (radix : Nat) (ds : List Nat) : Nat := ds.foldl (fun n d => n * radix + d) 0

/-- `read_number`, for a type of numbers below `bound`. -/
def readNumber (radix : Nat) (maxDigits : Option Nat) (allowZeroPrefix : Bool) (bound : Nat)
    (cs : List Char) : Option (Nat × List Char) :=
  let ds := (readDigits radix cs).1
  if ds = [] ∨ (∃ m ∈ maxDigits, m < ds.length) ∨ bound ≤ digitsValue radix ds ∨
      (allowZeroPrefix = false ∧ cs.head? = some '0' ∧ 1 < ds.length) then
    none
  else
    some (digitsValue radix ds, (readDigits radix cs).2)

def readGivenChar (target : Char) : List Char → Option (List Char)
  | [] => none
  | c :: cs => if c = target then some cs else none

def readOctet (cs : List Char) : Option (UInt8 × List Char) :=
  (readNumber 10 (some 3) false 256 cs).map fun (n, rest) => (UInt8.ofNat n, rest)

def readIpv4Addr (cs : List Char) : Option (Ipv4Addr × List Char) := do
  let (a, cs) ← readOctet cs
  let cs ← readGivenChar '.' cs
  let (b, cs) ← readOctet cs
  let cs ← readGivenChar '.' cs
  let (c, cs) ← readOctet cs
  let cs ← readGivenChar '.' cs
  let (d, cs) ← readOctet cs
  return (⟨a, b, c, d⟩, cs)

def readGroup (cs : List Char) : Option (UInt16 × List Char) :=
  (readNumber 16 (some 4) true 65536 cs).map fun (n, rest) => (UInt16.ofNat n, rest)

/-- `read_separator(':', i, ..)`: no colon stands before the first group. -/
def readColon (first : Bool) (cs : List Char) : Option (List Char) :=
  if first then some cs else readGivenChar ':' cs

/-- `read_groups` with room for `n` more groups: the groups read, whether the last two came
from an embedded IPv4 address, and the characters left. -/
def readGroups : Nat → Bool → List Char → List UInt16 × Bool × List Char
  | 0, _, cs => ([], false, cs)
  | n + 1, first, cs =>
    match if n = 0 then none else (readColon first cs).bind readIpv4Addr with
    | some (ip, rest) => ([group ip.a ip.b, group ip.c ip.d], true, rest)
    | none =>
      match (readColon first cs).bind readGroup with
      | some (g, rest) =>
        (g :: (readGroups n false rest).1, (readGroups n false rest).2)
      | none => ([], false, cs)

def Ipv6Addr.ofGroups (segments : List UInt16) : Option Ipv6Addr :=
  if h : segments.length = 8 then some ⟨segments, h⟩ else none

def readIpv6Addr (cs : List Char) : Option (Ipv6Addr × List Char) :=
  let (head, headIpv4, cs) := readGroups 8 true cs
  if head.length = 8 then
    (Ipv6Addr.ofGroups head).map (·, cs)
  else if headIpv4 then
    none
  else do
    let cs ← readGivenChar ':' cs
    let cs ← readGivenChar ':' cs
    let (tail, _, cs) := readGroups (8 - (head.length + 1)) true cs
    let zeros := List.replicate (8 - head.length - tail.length) 0
    (Ipv6Addr.ofGroups (head ++ zeros ++ tail)).map (·, cs)

def readPort (cs : List Char) : Option (UInt16 × List Char) := do
  let cs ← readGivenChar ':' cs
  (readNumber 10 none true 65536 cs).map fun (n, rest) => (UInt16.ofNat n, rest)

def readScopeId (cs : List Char) : Option (UInt32 × List Char) := do
  let cs ← readGivenChar '%' cs
  (readNumber 10 none true 4294967296 cs).map fun (n, rest) => (UInt32.ofNat n, rest)

def readSocketAddrV4 (cs : List Char) : Option (SocketAddrV4 × List Char) := do
  let (ip, cs) ← readIpv4Addr cs
  let (port, cs) ← readPort cs
  return (⟨ip, port⟩, cs)

def readSocketAddrV6 (cs : List Char) : Option (SocketAddrV6 × List Char) := do
  let cs ← readGivenChar '[' cs
  let (ip, cs) ← readIpv6Addr cs
  let (scopeId, cs) := (readScopeId cs).getD (0, cs)
  let cs ← readGivenChar ']' cs
  let (port, cs) ← readPort cs
  return (⟨ip, port, 0, scopeId⟩, cs)

/-- `str::parse::<SocketAddr>`: the whole text must be read. -/
def SocketAddr.parse (text : String) : Option SocketAddr :=
  let addr := match readSocketAddrV4 text.toList with
    | some (a, cs) => some (SocketAddr.v4 a, cs)
    | none => (readSocketAddrV6 text.toList).map fun (a, cs) => (SocketAddr.v6 a, cs)
  match addr with
  | some (a, []) => some a
  | _ => none

end Rndz.Net
