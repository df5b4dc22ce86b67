/-!
# Hexadecimal text

* `hex n`        `0x` and the digits of `n`, lower case, without leading zeros
* `hexPadded n`  `0x` and sixteen upper case digits, as addresses are written
-/

namespace PagedKernel

/-- `0x` and the hexadecimal digits of `n` -/
def hex (n : Nat) : String :=
  "0x" ++ String.ofList (Nat.toDigits 16 n)

/-- `0x` and the upper case hexadecimal digits of `n`, at least sixteen of them -/
def hexPadded (n : Nat) : String :=
  let digits := (Nat.toDigits 16 n).map Char.toUpper
  "0x" ++ String.ofList (List.replicate (16 - digits.length) '0' ++ digits)

end PagedKernel
