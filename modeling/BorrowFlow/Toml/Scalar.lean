/-!
# Numbers, dates and times

Which words are numbers, dates and times in TOML.
-/

namespace BorrowFlow.Toml

def isDigit (char : Char) : Bool :=
  '0' ≤ char && char ≤ '9'

def isHexDigit (char : Char) : Bool :=
  isDigit char || 'a' ≤ char && char ≤ 'f' || 'A' ≤ char && char ≤ 'F'

/-! ## Numbers

The value of a number is worked out by whoever asks for it. What is told here is only whether a word
may stand where a value is due.
-/

/--
Whether every underscore stands between two digits, in a word that follows a digit if `before` says
so.
-/
def dividesDigitsAfter (digit : Char → Bool) (before : Bool) : List Char → Bool
  | [] => true
  | '_' :: rest => before && rest.head?.any digit && dividesDigitsAfter digit false rest
  | char :: rest => dividesDigitsAfter digit (digit char) rest

def dividesDigits (digit : Char → Bool) (word : List Char) : Bool :=
  dividesDigitsAfter digit false word

def dropSign : List Char → List Char
  | '+' :: rest | '-' :: rest => rest
  | word => word

/-- Digits of one radix, or none at all, divided by underscores. -/
def isDigits (digit : Char → Bool) (word : List Char) : Bool :=
  word.all (fun c => digit c || c == '_') && dividesDigits digit word

/-- A number that names its radix; it has no sign. -/
def isRadixNumber : List Char → Bool
  | '0' :: 'x' :: digits => isDigits isHexDigit digits
  | '0' :: 'o' :: digits => isDigits (fun c => '0' ≤ c && c ≤ '7') digits
  | '0' :: 'b' :: digits => isDigits (fun c => c == '0' || c == '1') digits
  | _ => false

/--
A decimal number behind its sign, if it has one: no zero stands before other digits. Behind the
first underscore only the neighbours of underscores are looked at, and each may be any hexadecimal
digit. Blanks and what makes a fraction or an exponent are not allowed.
-/
def isDecimal (word : List Char) : Bool :=
  let rest := word.dropWhile isDigit
  word == ['0'] ||
    (!word.isEmpty && word.head? != some '0' && (rest.isEmpty || rest.head? == some '_') &&
      !rest.any (· ∈ [' ', '.', 'e', 'E']) && dividesDigits isHexDigit word)

/-- The word behind a run of digits and underscores that has at least one digit. -/
def afterDigits? (word : List Char) : Option (List Char) :=
  let inRun := fun c => isDigit c || c == '_'
  if (word.takeWhile inRun).any isDigit then some (word.dropWhile inRun) else none

def afterFraction? : List Char → Option (List Char)
  | '.' :: rest => afterDigits? rest
  | word => some word

def afterExponent? : List Char → Option (List Char)
  | 'e' :: rest | 'E' :: rest => afterDigits? (dropSign rest)
  | word => some word

/--
A decimal number behind its sign, if it has one, with a fraction, an exponent or both at will: no
zero stands before other digits.
-/
def isFraction (word : List Char) : Bool :=
  let whole := word.takeWhile fun c => isDigit c || c == '_'
  (afterDigits? word >>= afterFraction? >>= afterExponent?) == some [] &&
    (word.head? != some '0' || (whole.filter isDigit).length == 1) &&
    dividesDigits isDigit word

def isSpecial (word : List Char) : Bool :=
  word == ['i', 'n', 'f'] || word == ['n', 'a', 'n']

def isNumber (word : List Char) : Bool :=
  let unsigned := dropSign word
  isRadixNumber word || isSpecial unsigned || isDecimal unsigned || isFraction unsigned

/-! ## Dates and times -/

/-- The number that a word of so many digits stands for. -/
def fixedNumber? (count : Nat) (word : List Char) : Option Nat :=
  if word.length == count && word.all isDigit then
    some (word.foldl (fun number c => 10 * number + (c.toNat - '0'.toNat)) 0)
  else none

def daysIn (year month : Nat) : Nat :=
  if month == 2 then
    if year % 4 == 0 && (year % 100 != 0 || year % 400 == 0) then 29 else 28
  else if month ∈ [4, 6, 9, 11] then 30 else 31

/-- A year, a month and a day of it, as in `1979-05-27`. -/
def isDate (word : List Char) : Bool :=
  word.length == 10 && word[4]? == some '-' && word[7]? == some '-' &&
    match fixedNumber? 4 (word.take 4), fixedNumber? 2 ((word.drop 5).take 2),
      fixedNumber? 2 (word.drop 8) with
    | some year, some month, some day =>
      1 ≤ month && month ≤ 12 && 1 ≤ day && day ≤ daysIn year month
    | _, _, _ => false

/-- Hours and minutes, as in `07:32`. -/
def isClock (word : List Char) : Bool :=
  word.length == 5 && word[2]? == some ':' &&
    match fixedNumber? 2 (word.take 2), fixedNumber? 2 (word.drop 3) with
    | some hour, some minute => hour ≤ 23 && minute ≤ 59
    | _, _ => false

/-- Seconds with their fraction, as in `:08.25`; a time may do without them. -/
def isSeconds : List Char → Bool
  | [] => true
  | ':' :: rest =>
    (match fixedNumber? 2 (rest.take 2) with
      | some second => second ≤ 60
      | none => false) &&
    match rest.drop 2 with
    | [] => true
    | '.' :: fraction => fraction != [] && fraction.all isDigit
    | _ => false
  | _ => false

def isTime (word : List Char) : Bool :=
  isClock (word.take 5) && isSeconds (word.drop 5)

def isOffset : List Char → Bool
  | ['Z'] | ['z'] => true
  | '+' :: clock | '-' :: clock => isClock clock
  | _ => false

/-- A time of the day, with a distance from universal time or without. -/
def isTimeOfDate (word : List Char) : Bool :=
  let time := word.takeWhile fun c => !(c ∈ ['Z', 'z', '+', '-'])
  isTime time && (time.length == word.length || isOffset (word.drop time.length))

/-- A date and a time, as in `1979-05-27T07:32:00Z`; a blank may divide them too. -/
def isDateTime (word : List Char) : Bool :=
  isDate (word.take 10) && word[10]?.any (· ∈ ['T', 't', ' ']) && isTimeOfDate (word.drop 11)

def isScalarWord (word : List Char) : Bool :=
  isNumber word || isDate word || isTime word || isDateTime word

end BorrowFlow.Toml
