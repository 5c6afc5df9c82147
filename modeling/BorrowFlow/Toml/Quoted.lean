/-!
# Quoted texts

TOML has four ways to quote a text: between double quotes with escapes or between single quotes
without, each on one line or, between tripled quotes, on several. One reader serves them all.
-/

namespace BorrowFlow.Toml

/-- A text character: a tab, or any character that is not a control character of ASCII. -/
def isTextChar (char : Char) : Bool :=
  char == '\t' || (char.toNat ≥ 0x20 && char.toNat != 0x7F)

def isSpace (char : Char) : Bool :=
  char == ' ' || char == '\t'

/-- Whether a line ends here: by a line feed, or by a carriage return right before one. -/
def isLineEnd (char : Char) (rest : List Char) : Bool :=
  char == '\n' || (char == '\r' && rest.head? == some '\n')

structure Quoting where
  quote : Char
  escapes : Bool
  multiline : Bool

/-- What the characters read so far call for. -/
inductive Quoting.State where
  | text
  /-- A backslash was read. -/
  | escape
  /-- So many hexadecimal digits are still to come; those read give the number. -/
  | digits (left : Nat) (number : Nat)
  /-- A backslash and spaces were read: the line has to end. -/
  | folding
  /-- A folded line ended: spaces and further line ends do not count. -/
  | skipping

def hexDigit? (char : Char) : Option Nat :=
  if '0' ≤ char ∧ char ≤ '9' then some (char.toNat - '0'.toNat)
  else if 'a' ≤ char ∧ char ≤ 'f' then some (char.toNat - 'a'.toNat + 10)
  else if 'A' ≤ char ∧ char ≤ 'F' then some (char.toNat - 'A'.toNat + 10)
  else none

/-- The character that a backslash and a letter stand for. -/
def escapeChar? : Char → Option Char
  | 'b' => some '\x08'
  | 't' => some '\t'
  | 'n' => some '\n'
  | 'f' => some '\x0c'
  | 'r' => some '\r'
  | 'e' => some '\x1b'
  | '"' => some '"'
  | '\\' => some '\\'
  | _ => none

/-- The number of hexadecimal digits that follow a backslash and a letter. -/
def escapeDigits? : Char → Option Nat
  | 'x' => some 2
  | 'u' => some 4
  | 'U' => some 8
  | _ => none

def charOfNumber? (number : Nat) : Option Char :=
  if number.isValidChar then some (Char.ofNat number) else none

/--
Reads up to the closing quote: the text, and what stands behind it. A closing tripled quote may have
up to two quotes before it that belong to the text.
-/
def Quoting.read (quoting : Quoting) : State → List Char → Option (List Char × List Char)
  | _, [] => none
  | .escape, char :: rest =>
    match escapeChar? char, escapeDigits? char with
    | some meant, _ => (quoting.read .text rest).map fun (text, rest) => (meant :: text, rest)
    | none, some count => quoting.read (.digits count 0) rest
    | none, none =>
      if !quoting.multiline then none
      else if char == '\n' then quoting.read .skipping rest
      else if isSpace char || isLineEnd char rest then quoting.read .folding rest
      else none
  | .digits left number, char :: rest => do
    let number := 16 * number + (← hexDigit? char)
    if left ≤ 1 then
      let meant ← charOfNumber? number
      let (text, rest) ← quoting.read .text rest
      some (meant :: text, rest)
    else
      quoting.read (.digits (left - 1) number) rest
  | .folding, char :: rest =>
    if char == '\n' then quoting.read .skipping rest
    else if isSpace char || isLineEnd char rest then quoting.read .folding rest
    else none
  | state, char :: rest =>
    if state matches .skipping && (isSpace char || isLineEnd char rest) then
      quoting.read .skipping rest
    else if char == quoting.quote then
      if !quoting.multiline then some ([], rest)
      else if rest.take 2 == [quoting.quote, quoting.quote] then
        let extra := ((rest.drop 2).take 2).takeWhile (· == quoting.quote)
        some (extra, rest.drop (2 + extra.length))
      else (quoting.read .text rest).map fun (text, rest) => (char :: text, rest)
    else if char == '\\' && quoting.escapes then quoting.read .escape rest
    else if isTextChar char || (quoting.multiline && isLineEnd char rest) then
      (quoting.read .text rest).map fun (text, rest) => (char :: text, rest)
    else none

def quoted? : List Char → Option (String × List Char)
  | '"' :: rest => (Quoting.read ⟨'"', true, false⟩ .text rest).map fun (text, rest) =>
      (String.ofList text, rest)
  | '\'' :: rest => (Quoting.read ⟨'\'', false, false⟩ .text rest).map fun (text, rest) =>
      (String.ofList text, rest)
  | _ => none

/-- Passes over a quoted text, on one line or on several: what stands behind it. -/
def skipQuoted? : List Char → Option (List Char)
  | '"' :: '"' :: '"' :: rest => (Quoting.read ⟨'"', true, true⟩ .text rest).map (·.2)
  | '\'' :: '\'' :: '\'' :: rest => (Quoting.read ⟨'\'', false, true⟩ .text rest).map (·.2)
  | input => (quoted? input).map (·.2)

end BorrowFlow.Toml
