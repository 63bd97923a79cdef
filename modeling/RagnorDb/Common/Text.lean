/-!
# Text checks

The two checks of the standard library that validators apply to text: whether anything is
left after trimming, and whether it is a socket address (`core::net::parser`).  Only
whether an address is accepted matters here, so a reader returns the input that is left.
-/

namespace RagnorDb

/-- `char::is_whitespace`. -/
def isWhitespace (c : Char) : Bool :=
  let n := c.toNat
  (9 ≤ n && n ≤ 13) || n = 0x20 || n = 0x85 || n = 0xa0 || n = 0x1680 ||
    (0x2000 ≤ n && n ≤ 0x200a) || n = 0x2028 || n = 0x2029 || n = 0x202f || n = 0x205f ||
    n = 0x3000

/-- `text.trim().is_empty()`. -/
def isBlank (text : String) : Bool :=
  text.toList.all isWhitespace

theorem isBlank_append (a b : String) : isBlank (a ++ b) = (isBlank a && isBlank b) := by
  simp [isBlank]

theorem isBlank_append_left {a b : String} (h : isBlank a = false) : isBlank (a ++ b) = false := by
  rw [isBlank_append, h, Bool.false_and]

namespace SocketAddr

/-- `char::to_digit`. -/
def toDigit (radix : Nat) (c : Char) : Option Nat :=
  let value :=
    if '0' ≤ c ∧ c ≤ '9' then c.toNat - '0'.toNat
    else if 'a' ≤ c ∧ c ≤ 'z' then c.toNat - 'a'.toNat + 10
    else if 'A' ≤ c ∧ c ≤ 'Z' then c.toNat - 'A'.toNat + 10
    else radix
  if value < radix then some value else none

/-- The digits that the input starts with, and the rest. -/
def readDigits (radix : Nat) : List Char → List Nat × List Char
  | [] => ([], [])
  | c :: input =>
    match toDigit radix c with
    | some digit => ((readDigits radix input).map (digit :: ·) id)
    | none => ([], c :: input)

/-- A number of at most `limit`. -/
def readNumber (radix : Nat) (maxDigits : Option Nat) (allowZeroPrefix : Bool) (limit : Nat)
    (input : List Char) : Option (List Char) :=
  let (digits, rest) := readDigits radix input
  if digits = [] ∨ maxDigits.any (· < digits.length) then none
  else if ¬ allowZeroPrefix ∧ digits.head? = some 0 ∧ 1 < digits.length then none
  else if limit < digits.foldl (· * radix + ·) 0 then none
  else some rest

def readGivenChar (target : Char) : List Char → Option (List Char)
  | [] => none
  | c :: input => if c = target then some input else none

/-- A separator before every element but the first. -/
def readSeparator (separator : Char) (index : Nat) (input : List Char) : Option (List Char) :=
  if index = 0 then some input else readGivenChar separator input

def readIpv4Octet (index : Nat) (input : List Char) : Option (List Char) := do
  let input ← readSeparator '.' index input
  readNumber 10 (some 3) false 255 input

def readIpv4Addr (input : List Char) : Option (List Char) :=
  (List.range 4).foldlM (fun input index => readIpv4Octet index input) input

/-- Up to `left` more groups of an IPv6 address, of which the last two may be an embedded
IPv4 address: how many there are, and whether one is. -/
def readGroups : Nat → Nat → List Char → Nat × Bool × List Char
  | 0, index, input => (index, false, input)
  | left + 1, index, input =>
    let embedded := if left = 0 then none else (readSeparator ':' index input).bind readIpv4Addr
    match embedded with
    | some rest => (index + 2, true, rest)
    | none =>
      match (readSeparator ':' index input).bind (readNumber 16 (some 4) true 0xffff) with
      | some rest => readGroups left (index + 1) rest
      | none => (index, false, input)

variable (input : List Char)

def readIpv6Addr : Option (List Char) :=
  let (headSize, headIpv4, rest) := readGroups 8 0 input
  if headSize = 8 then some rest
  else if headIpv4 then none
  else do
    let rest ← readGivenChar ':' rest
    let rest ← readGivenChar ':' rest
    return (readGroups (8 - (headSize + 1)) 0 rest).2.2

def readPort : Option (List Char) := do
  let input ← readGivenChar ':' input
  readNumber 10 none true 0xffff input

def readScopeId : Option (List Char) := do
  let input ← readGivenChar '%' input
  readNumber 10 none true 0xffffffff input

def readSocketAddrV4 : Option (List Char) := do
  let input ← readIpv4Addr input
  readPort input

def readSocketAddrV6 : Option (List Char) := do
  let input ← readGivenChar '[' input
  let input ← readIpv6Addr input
  let input := (readScopeId input).getD input
  let input ← readGivenChar ']' input
  readPort input

variable {input}

/-- `value.parse::<SocketAddr>().is_ok()`. -/
def isValid (value : String) : Bool :=
  let input := value.toList
  (readSocketAddrV4 input).or (readSocketAddrV6 input) = some []

example : isValid "127.0.0.1:80" ∧ isValid "[::ffff:1.2.3.4%1]:80" ∧ ¬ isValid "127.0.0.01:80" := by
  decide +kernel

end SocketAddr

end RagnorDb
