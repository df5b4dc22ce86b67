/-!
# Reading text from bytes

Decodes UTF-8.  Bytes that are not part of a character are replaced: each longest run that could
have begun a character, or else each single byte, becomes one replacement character.

* `Utf8.followers`   the bytes that may follow a first byte
* `Utf8.decode`      the characters of a list of bytes
-/

namespace PagedKernel

namespace Utf8

/-- the character that stands for what is no text -/
def replacement : Char := '\uFFFD'

/-- the bytes from `low` to `high` -/
abbrev ByteRange := UInt8 × UInt8

/-- the bytes that may follow the first byte `b` of a character, in order; nothing may follow a
character of one byte, and `none` if no character starts with `b` -/
def followers (b : UInt8) : Option (List ByteRange) :=
  let tail : ByteRange := (0x80, 0xBF)
  if b < 0x80 then some []
  else if b < 0xC2 then none
  else if b < 0xE0 then some [tail]
  else if b = 0xE0 then some [(0xA0, 0xBF), tail]
  else if b = 0xED then some [(0x80, 0x9F), tail]
  else if b < 0xF0 then some [tail, tail]
  else if b = 0xF0 then some [(0x90, 0xBF), tail, tail]
  else if b < 0xF4 then some [tail, tail, tail]
  else if b = 0xF4 then some [(0x80, 0x8F), tail, tail]
  else none

/-- the part of a first byte that belongs to the character, when `n` bytes follow -/
def leadBits (b : UInt8) (n : Nat) : Nat :=
  match n with
  | 0 => b.toNat
  | 1 => b.toNat % 32
  | 2 => b.toNat % 16
  | _ => b.toNat % 8

/-- read the bytes that have to follow: the finished code, if all of them are there, and the bytes
that are left -/
def continueWith : List ByteRange → Nat → List UInt8 → Option Nat × List UInt8
  | [], code, rest => (some code, rest)
  | _ :: _, _, [] => (none, [])
  | (low, high) :: more, code, b :: rest =>
    if low ≤ b ∧ b ≤ high then continueWith more (code * 64 + b.toNat % 64) rest
    else (none, b :: rest)

theorem length_continueWith (ranges : List ByteRange) (code : Nat) (bytes : List UInt8) :
    (continueWith ranges code bytes).2.length ≤ bytes.length := by
  fun_induction continueWith ranges code bytes with
  | case1 => simp
  | case2 => simp
  | case3 low high more code b rest h ih =>
    simp only [List.length_cons]
    omega
  | case4 => simp

/-- the characters of a list of bytes -/
def decode : List UInt8 → List Char
  | [] => []
  | b :: rest =>
    match followers b with
    | none => replacement :: decode rest
    | some ranges =>
      match _h : continueWith ranges (leadBits b ranges.length) rest with
      | (some code, rest') => Char.ofNat code :: decode rest'
      | (none, rest') => replacement :: decode rest'
termination_by bytes => bytes.length
decreasing_by
  all_goals simp only [List.length_cons]
  · omega
  all_goals
    have := length_continueWith ranges (leadBits b ranges.length) rest
    rw [_h] at this
    simp only at this
    omega

/-- the text in a byte array -/
def text (bytes : ByteArray) : String :=
  String.ofList (decode bytes.data.toList)

end Utf8

end PagedKernel
