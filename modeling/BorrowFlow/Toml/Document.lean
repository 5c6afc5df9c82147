import BorrowFlow.Toml.Quoted
import BorrowFlow.Toml.Scalar
import BorrowFlow.Toml.Value

/-!
# TOML documents

Reading a text as a TOML document. A reader answers what it read together with the input behind it,
or nothing where the input breaks a rule; why a document is refused is not told.
-/

namespace BorrowFlow.Toml

abbrev Reader (α : Type) := List Char → Option (α × List Char)

/-! ## Blanks and comments -/

def skipSpaces (input : List Char) : List Char :=
  input.dropWhile isSpace

/-- Passes over spaces, line ends and comments. -/
def skipBlanks (inComment : Bool) : List Char → Option (List Char)
  | [] => some []
  | char :: rest =>
    if isLineEnd char rest then skipBlanks (inComment && char == '\r') rest
    else if inComment then
      if isTextChar char then skipBlanks true rest else none
    else if isSpace char then skipBlanks false rest
    else if char == '#' then skipBlanks true rest
    else some (char :: rest)

/-- Passes over the rest of a line, on which nothing but a comment may stand. -/
def skipLine (input : List Char) : Option (List Char) :=
  let rest := skipSpaces input
  let rest := if rest.head? == some '#' then rest.dropWhile isTextChar else rest
  match rest with
  | [] => some []
  | '\n' :: rest | '\r' :: '\n' :: rest => some rest
  | _ => none

/-! ## Keys -/

def isKeyChar (char : Char) : Bool :=
  char.isAlphanum || char == '_' || char == '-'

/-- A key without dots: a bare word, or a quoted text on one line. -/
def simpleKey : Reader String := fun input =>
  match input with
  | '"' :: _ | '\'' :: _ => quoted? input
  | _ =>
    let word := input.takeWhile isKeyChar
    if word.isEmpty then none else some (String.ofList word, input.dropWhile isKeyChar)

/-- Reads a dotted key of at most so many parts, and the spaces behind it. -/
def keyWithin : Nat → Reader Key
  | 0, _ => none
  | parts + 1, input => do
    let (name, rest) ← simpleKey input
    match skipSpaces rest with
    | '.' :: rest =>
      let (key, rest) ← keyWithin parts (skipSpaces rest)
      some ({ key with path := name :: key.path }, rest)
    | rest => some ({ path := [], name }, rest)

def keyLimit : Nat := 80

def key : Reader Key :=
  keyWithin keyLimit

/-! ## Values -/

/-- Whether a word ends before the character. -/
def endsWord (char : Char) : Bool :=
  char ∈ [' ', '\t', '\n', '\r', ',', '=', '[', ']', '\x7b', '\x7d', '#']

/-- Whether a word that begins with the character goes on with the words before it. -/
def joinsWords (char : Char) : Bool :=
  !endsWord char && !(char ∈ ['.', '"', '\''])

/-- Splits off the words at the start of the input, together with the spaces between them. -/
def splitWords : List Char → List Char × List Char
  | [] => ([], [])
  | char :: rest =>
    let goesOn :=
      if isSpace char then (skipSpaces rest).head?.any joinsWords else !endsWord char
    if goesOn then
      let (words, behind) := splitWords rest
      (char :: words, behind)
    else ([], char :: rest)

/-- A truth value, a number, a date or a time. -/
def bareValue : Reader Value := fun input =>
  let (words, rest) := splitWords input
  if words == "true".toList then some (.boolean true, rest)
  else if words == "false".toList then some (.boolean false, rest)
  else if isScalarWord words then some (.scalar, rest)
  else none

def scalar : Reader Value := fun input =>
  match input with
  | '"' :: _ | '\'' :: _ => (skipQuoted? input).map fun rest => (.scalar, rest)
  | _ => bareValue input

/--
Reads at most so many elements up to the closing bracket. Commas divide the elements, and one more
may follow the last.
-/
def elementsWithin {α : Type} (close : Char) (element : Reader α) : Nat → Reader (List α)
  | 0, _ => none
  | count + 1, input => do
    let input ← skipBlanks false input
    if input.head? == some close then some ([], input.drop 1) else
    let (first, rest) ← element input
    let rest ← skipBlanks false rest
    if rest.head? == some close then some ([first], rest.drop 1) else
    guard (rest.head? == some ',')
    let (others, rest) ← elementsWithin close element count (rest.drop 1)
    some (first :: others, rest)

/-- There cannot be more elements than characters. -/
def elements {α : Type} (close : Char) (element : Reader α) : Reader (List α) := fun input =>
  elementsWithin close element (input.length + 1) input

/-- Reads a key, an equality sign and a value. What may stand around the sign is told by `skip`. -/
def pair (skip : List Char → Option (List Char)) (value : Reader Value) : Reader (Key × Value) :=
  fun input => do
    let (key, rest) ← key input
    let rest ← skip rest
    guard (rest.head? == some '=')
    let rest ← skip (rest.drop 1)
    let (value, rest) ← value rest
    some ((key, value), rest)

/-- Reads a value whose arrays and inline tables nest at most so deep. -/
def valueWithin : Nat → Reader Value
  | depth + 1, '[' :: rest => do
    let (items, rest) ← elements ']' (valueWithin depth) rest
    some (.array items, rest)
  | depth + 1, '\x7b' :: rest => do
    let (pairs, rest) ← elements '\x7d' (pair (skipBlanks false) (valueWithin depth)) rest
    let entries ← pairs.foldlM (fun entries (key, value) => Entries.define key value entries) []
    some (.table .inline entries, rest)
  | _, input => scalar input

def nestingLimit : Nat := 80

def value : Reader Value :=
  valueWithin nestingLimit

/-! ## Statements -/

inductive Statement where
  | header (key : Key)
  | nextHeader (key : Key)
  | definition (key : Key) (value : Value)

/-- A document under construction: its root table, and the path of the header in force. -/
structure Draft where
  root : Entries := []
  header : List String := []

def Draft.apply (draft : Draft) : Statement → Option Draft
  | .header key => do
    some { root := ← draft.root.openTable key, header := key.path ++ [key.name] }
  | .nextHeader key => do
    some { root := ← draft.root.openNext key, header := key.path ++ [key.name] }
  | .definition key value => do
    some { draft with root := ← draft.root.under draft.header (Entries.define key value) }

def statement : Reader Statement := fun input =>
  match input with
  | '[' :: '[' :: rest => do
    let (key, rest) ← key (skipSpaces rest)
    guard (rest.take 2 == [']', ']'])
    some (.nextHeader key, rest.drop 2)
  | '[' :: rest => do
    let (key, rest) ← key (skipSpaces rest)
    guard (rest.head? == some ']')
    some (.header key, rest.drop 1)
  | _ => do
    let ((key, value), rest) ← pair (some ∘ skipSpaces) value input
    some (.definition key value, rest)

/-- Reads at most so many statements, each on lines of its own, up to the end of the input. -/
def statementsWithin : Nat → List Char → Option (List Statement)
  | 0, _ => none
  | count + 1, input => do
    let input ← skipBlanks false input
    if input.isEmpty then some [] else
    let (first, rest) ← statement input
    let rest ← skipLine rest
    let others ← statementsWithin count rest
    some (first :: others)

/-- The root table of a document. A byte order mark at the start does not count. -/
def document? (text : String) : Option Entries := do
  let input := match text.toList with
    | '\uFEFF' :: rest => rest
    | input => input
  let statements ← statementsWithin (input.length + 1) input
  let draft ← statements.foldlM Draft.apply {}
  some draft.root

end BorrowFlow.Toml
