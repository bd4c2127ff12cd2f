import FlowDoc.Config.Toml.Text
import FlowDoc.Config.Value
import FlowDoc.Decimal.Integer

/-!
# Plain values of a configuration file

Texts, numbers, truth values and moments. Digits may be parted by single underscores. A moment is kept as its text: with a
`T` between date and time, the trailing zeros of the seconds dropped, and at most nine digits of their fraction.
-/

namespace FlowDoc.Config.Toml

open Scan

/-! ## Numbers -/

/-- Digits of a class, with single underscores between them. -/
def digits (p : Char → Bool) : Scan (List Char) := do
  return (← one p) :: (← many (one p <|> do char '_'; one p))

/-- A sign, or none. -/
def sign : Scan (List Char) := (fun c => [c]) <$> one (fun c => c == '+' || c == '-') <|> pure []

/-- A decimal integer; one of several digits does not begin with a zero. -/
def decimal : Scan (List Char) := do
  let s ← sign
  let ds ← digits Char.isDigit
  guard (ds.length = 1 || ds.head? != some '0')
  return s ++ ds

/-- A point and digits. -/
def fraction : Scan (List Char) := do
  char '.'
  return '.' :: (← digits Char.isDigit)

/-- An exponent of ten. -/
def exponent : Scan (List Char) := do
  discard (one fun c => c == 'e' || c == 'E')
  return 'e' :: (← sign) ++ (← digits Char.isDigit)

/-- A number with a fraction, an exponent, or both. One that is positive is not too large. -/
def float : Scan Value := do
  let whole ← decimal
  let tail ← exponent <|> do return (← fraction) ++ ((← maybe exponent).getD [])
  match Binary64.ofString? (String.ofList (whole ++ tail)) with
  | some x => if x = .infinity then failure else return .float x
  | none => failure

/-- Infinity, or no number. -/
def specialFloat : Scan Value := do
  let s ← sign
  let x ← (do word "inf".toList; return Binary64.infinity) <|> (do word "nan".toList; return Binary64.nan)
  return .float (if s = ['-'] then x.neg else x)

/-- An integer of 64 bits, from the digits of a base. -/
def integerOf (base : Nat) (ds : List Char) : Scan Value :=
  match ds.foldlM (fun n d => (Uri.hexValue? d).map (base * n + ·)) 0 with
  | some n => if n < Nat.pow 2 63 then return .int n else failure
  | none => failure

/-- An integer in base sixteen, eight, two or ten. -/
def integer : Scan Value :=
  (do word "0x".toList; integerOf 16 (← digits Uri.isHexDigit)) <|>
  (do word "0o".toList; integerOf 8 (← digits fun c => '0' ≤ c && c ≤ '7')) <|>
  (do word "0b".toList; integerOf 2 (← digits fun c => c == '0' || c == '1')) <|>
  do
    match Decimal.readInt64? (← decimal) with
    | some n => return .int n
    | none => failure

/-! ## Moments -/

/-- Digits whose number lies between two bounds, with the number. -/
def field (width least most : Nat) : Scan (Nat × List Char) := do
  let ds ← exactly Char.isDigit width
  match Decimal.readDigits? ds with
  | some n => if least ≤ n && n ≤ most then return (n, ds) else failure
  | none => failure

/-- The days of a month. -/
def daysOf (year month : Nat) : Nat :=
  if month = 2 then if year % 4 = 0 && (year % 100 != 0 || year % 400 = 0) then 29 else 28
  else if [4, 6, 9, 11].contains month then 30 else 31

/-- A date. -/
def date : Scan (List Char) := do
  let (year, y) ← field 4 0 9999
  char '-'
  let (month, m) ← field 2 1 12
  char '-'
  let (_, d) ← field 2 1 (daysOf year month)
  return y ++ '-' :: m ++ '-' :: d

/-- The fraction of a second. -/
def secondFraction : Scan (List Char) := do
  char '.'
  match Text.trimRight (· == '0') ((← span1 Char.isDigit).take 9) with
  | [] => return []
  | ds => return '.' :: ds

/-- A time of day. -/
def time : Scan (List Char) := do
  let (_, h) ← field 2 0 23
  char ':'
  let (_, m) ← field 2 0 59
  char ':'
  let (_, s) ← field 2 0 60
  return h ++ ':' :: m ++ ':' :: s ++ ((← maybe secondFraction).getD [])

/-- How far a time is from universal time. -/
def offset : Scan (List Char) :=
  (do discard (one fun c => c == 'Z' || c == 'z'); return ['Z']) <|> do
    let s ← one fun c => c == '+' || c == '-'
    let (hours, h) ← field 2 0 23
    char ':'
    let (minutes, m) ← field 2 0 59
    return (if hours = 0 && minutes = 0 then '+' else s) :: h ++ ':' :: m

/-- A date, a time, or a date and a time with an offset or without. -/
def moment : Scan Value := do
  let afterDate : Scan (List Char) := do
    discard (one fun c => c == 'T' || c == 't' || c == ' ')
    return 'T' :: (← time) ++ ((← maybe offset).getD [])
  let cs ← (do return (← date) ++ ((← maybe afterDate).getD [])) <|> time
  return .text (String.ofList cs)

/-! ## All together -/

def truth : Scan Value := (do word "true".toList; return .bool true) <|> (do word "false".toList; return .bool false)

/-- A value that holds no others. -/
def scalar : Scan Value := Value.text <$> text <|> truth <|> moment <|> float <|> specialFloat <|> integer

end FlowDoc.Config.Toml
