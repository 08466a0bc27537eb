/-
  Lantern.Text.Decimal — numbers in decimal notation.

  An integer is read as one optional sign and at least one ASCII digit, nothing else;
  leading zeros are allowed, and a number outside the range of `Int64` is refused rather
  than wrapped. The scanner hands over digits only; a token made by hand may hold any
  text. A span of time is written with two decimals, in the largest unit it fills.
-/

namespace Lantern.Text

/-! ## Reading integers -/

def digitsValue? (acc : Nat) : List Char → Option Nat
  | [] => some acc
  | c :: rest => if '0' ≤ c ∧ c ≤ '9' then digitsValue? (acc * 10 + (c.toNat - '0'.toNat)) rest else none

def natural? : List Char → Option Nat
  | [] => none
  | digits => digitsValue? 0 digits

def int64? (n : Int) : Option Int64 :=
  if Int64.minValue.toInt ≤ n ∧ n ≤ Int64.maxValue.toInt then some (Int64.ofInt n) else none

def decimal? (text : String) : Option Int64 :=
  match text.toList with
  | '-' :: digits => (natural? digits).bind fun n => int64? (-n)
  | '+' :: digits => (natural? digits).bind fun n => int64? n
  | digits => (natural? digits).bind fun n => int64? n

/-! ## Writing spans of time -/

def hundredths (amount unit : Nat) : String :=
  let rounded := (amount * 100 + unit / 2) / unit
  let decimals := rounded % 100
  toString (rounded / 100) ++ "." ++ (if decimals < 10 then "0" else "") ++ toString decimals

def duration (nanoseconds : Nat) : String :=
  if 1000000000 ≤ nanoseconds then hundredths nanoseconds 1000000000 ++ "s"
  else if 1000000 ≤ nanoseconds then hundredths nanoseconds 1000000 ++ "ms"
  else if 1000 ≤ nanoseconds then hundredths nanoseconds 1000 ++ "µs"
  else toString nanoseconds ++ ".00ns"

end Lantern.Text
