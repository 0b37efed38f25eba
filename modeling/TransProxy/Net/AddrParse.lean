import TransProxy.Library.Text
import TransProxy.Net.Addr

/-!
# Reading socket addresses

The parser of the standard library for IP addresses and socket addresses. A reader
that fails leaves the text as it was.
-/
namespace TransProxy.Net
open Library

abbrev Reader := StateT (List Char) Option

def readChar : Reader Char := fun text =>
  match text with
  | [] => none
  | c :: rest => some (c, rest)

def readGivenChar (target : Char) : Reader Unit := do
  let c ← readChar
  if c = target then pure () else failure

/-- `char::to_digit` for radix 10 and 16. -/
def toDigit (radix : ℕ) (c : Char) : Option ℕ :=
  let digit :=
    if c.isDigit then some (c.toNat - 48)
    else if 'a' ≤ c ∧ c ≤ 'f' then some (c.toNat - 87)
    else if 'A' ≤ c ∧ c ≤ 'F' then some (c.toNat - 55)
    else none
  digit.filter (fun d => decide (d < radix))

/-- All digits that follow, for a number below `size`. -/
def readNumber (radix size : ℕ) (maxDigits : Option ℕ) (allowZero : Bool) : Reader ℕ := fun text =>
  let digits := text.takeWhile (fun c => (toDigit radix c).isSome)
  let n := digits.foldl (fun n c => radix * n + (toDigit radix c).getD 0) 0
  if digits = [] then none
  else if maxDigits.any (fun max => decide (max < digits.length)) then none
  else if !allowZero && digits.head? == some '0' && 1 < digits.length then none
  else if n < size then some (n, text.drop digits.length)
  else none

/-- The separator stands between the parts. -/
def readSeparator {α : Type} (sep : Char) (i : ℕ) (inner : Reader α) : Reader α := do
  if 0 < i then readGivenChar sep
  inner

def readIpv4Addr : Reader Ipv4Addr := do
  let group := fun i => readSeparator '.' i (readNumber 10 256 (some 3) false)
  let a ← group 0
  let b ← group 1
  let c ← group 2
  let d ← group 3
  pure (.new (UInt8.ofNat a) (UInt8.ofNat b) (UInt8.ofNat c) (UInt8.ofNat d))

/-- Groups of an IPv6 address, up to `limit` of them, and whether an IPv4 address ended
them. The last argument but one is what was read. -/
def readGroups (limit : ℕ) : ℕ → List ℕ → List Char → List ℕ × Bool × List Char
  | 0, groups, text => (groups, false, text)
  | fuel + 1, groups, text =>
    let i := groups.length
    let ipv4 := if i + 1 < limit then (readSeparator ':' i readIpv4Addr).run text else none
    match ipv4 with
    | some (ip, rest) =>
      let pair := fun (hi lo : UInt8) => 256 * hi.toNat + lo.toNat
      let o := ip.octets
      (groups ++ [pair (o.get 0) (o.get 1), pair (o.get 2) (o.get 3)], true, rest)
    | none =>
      match (readSeparator ':' i (readNumber 16 65536 (some 4) true)).run text with
      | some (group, rest) => readGroups limit fuel (groups ++ [group]) rest
      | none => (groups, false, text)

def Ipv6Addr.ofSegments (segments : List ℕ) : Ipv6Addr :=
  ⟨Vector.ofFn fun i : Fin 16 =>
    let segment := segments.getD (i.val / 2) 0
    UInt8.ofNat (if i.val % 2 = 0 then segment / 256 else segment)⟩

/-- Eight groups, or less with a `::` for the missing ones. -/
def readIpv6Addr : Reader Ipv6Addr := fun text =>
  let (head, headIpv4, text) := readGroups 8 8 [] text
  if head.length = 8 then some (.ofSegments head, text)
  else if headIpv4 then none
  else
    (do
      readGivenChar ':'
      readGivenChar ':'
      let limit := 8 - (head.length + 1)
      let (tail, _, text) := readGroups limit limit [] (← get)
      set text
      let zeros := List.replicate (8 - head.length - tail.length) 0
      pure (.ofSegments (head ++ zeros ++ tail)) : Reader Ipv6Addr).run text

def readPort : Reader UInt16 := do
  readGivenChar ':'
  let port ← readNumber 10 65536 none true
  pure (UInt16.ofNat port)

def readScopeId : Reader UInt32 := do
  readGivenChar '%'
  let scopeId ← readNumber 10 4294967296 none true
  pure (UInt32.ofNat scopeId)

def readSocketAddrV4 : Reader SocketAddr := do
  let ip ← readIpv4Addr
  let port ← readPort
  pure (.v4 ip port)

def readSocketAddrV6 : Reader SocketAddr := do
  readGivenChar '['
  let ip ← readIpv6Addr
  let scopeId ← readScopeId <|> pure 0
  readGivenChar ']'
  let port ← readPort
  pure (.v6 ip port 0 scopeId)

/-- `parse::<SocketAddr>()`: nothing may follow. -/
def SocketAddr.parse (text : String) : Option SocketAddr :=
  match (readSocketAddrV4 <|> readSocketAddrV6).run text.toList with
  | some (addr, []) => some addr
  | _ => none

example : SocketAddr.parse "[fe80::1.2.3.4%7]:080" =
    some (.v6 (.ofSegments [0xfe80, 0, 0, 0, 0, 0, 0x102, 0x304]) 80 0 7) := by
  decide

end TransProxy.Net
