/-
The small parts of TOML text: blanks and comments, the four kinds of
strings, and names. Each reader takes what it reads from the front and hands
back the rest.
-/
import LedgerCore.Bytes

namespace LedgerCore.Toml

-- ======================================================= blanks, comments

/-- Drops a byte order mark. -/
def skipMark : List Char → List Char
  | '\ufeff' :: rest => rest
  | text => text

/-- Whether a character may not stand in text: the control characters but
the tab. -/
def isControl (c : Char) : Bool := (c < ' ' && c != '\t') || c == '\x7f'

/-- Drops blanks. -/
def skipBlanks (text : List Char) : List Char := text.dropWhile fun c => c == ' ' || c == '\t'

/-- Drops blanks, ends of lines and comments. -/
def skipVoid : (inComment : Bool) → List Char → Option (List Char)
  | _, [] => some []
  | _, '\r' :: '\n' :: rest => skipVoid false rest
  | _, '\n' :: rest => skipVoid false rest
  | true, c :: rest => if isControl c then none else skipVoid true rest
  | false, c :: rest =>
      if c = ' ' ∨ c = '\t' then skipVoid false rest
      else if c = '#' then skipVoid true rest
      else some (c :: rest)

/-- Drops the rest of a line, which may hold a comment only. -/
def endLine : (inComment : Bool) → List Char → Option (List Char)
  | _, [] => some []
  | _, '\r' :: '\n' :: rest => some rest
  | _, '\n' :: rest => some rest
  | true, c :: rest => if isControl c then none else endLine true rest
  | false, c :: rest =>
      if c = ' ' ∨ c = '\t' then endLine false rest
      else if c = '#' then endLine true rest
      else none

-- ================================================================ strings

/-- A piece of text and the rest behind it. -/
abbrev Piece := List Char × List Char

/-- Puts a character in front of a piece. -/
def Piece.cons (c : Char) (piece : Piece) : Piece := (c :: piece.1, piece.2)

/-- The character of a code point in hexadecimal digits. -/
def codePoint? (digits : List Char) : Option Char := do
  let values ← digits.mapM Bytes.hexValue?
  let n := values.foldl (fun n d => 16 * n + d) 0
  if n < 0xd800 ∨ (0xdfff < n ∧ n < 0x110000) then some (Char.ofNat n) else none

/-- The character behind a one-letter escape. -/
def escaped? : Char → Option Char
  | 'b' => some '\x08'
  | 't' => some '\t'
  | 'n' => some '\n'
  | 'f' => some '\x0c'
  | 'r' => some '\r'
  | 'e' => some '\x1b'
  | '"' => some '"'
  | '\\' => some '\\'
  | _ => none

/-- Reads a string with escapes, on one line, up to its quote. -/
def readBasic : List Char → Option Piece
  | [] => none
  | '"' :: rest => some ([], rest)
  | '\\' :: 'x' :: a :: b :: rest => do
      return (← readBasic rest).cons (← codePoint? [a, b])
  | '\\' :: 'u' :: a :: b :: c :: d :: rest => do
      return (← readBasic rest).cons (← codePoint? [a, b, c, d])
  | '\\' :: 'U' :: a :: b :: c :: d :: e :: f :: g :: h :: rest => do
      return (← readBasic rest).cons (← codePoint? [a, b, c, d, e, f, g, h])
  | '\\' :: letter :: rest => do
      return (← readBasic rest).cons (← escaped? letter)
  | c :: rest => if isControl c then none else (Piece.cons c) <$> readBasic rest

/-- Reads a string without escapes, on one line, up to its quote. -/
def readLiteral : List Char → Option Piece
  | [] => none
  | '\'' :: rest => some ([], rest)
  | c :: rest => if isControl c then none else (Piece.cons c) <$> readLiteral rest

/-- The end of a string over several lines: three quotes, before which up
to two more belong to the string. -/
def closing? (quote : Char) : List Char → Option Piece
  | a :: b :: c :: rest =>
      if a = quote ∧ b = quote ∧ c = quote then
        let extra := (rest.take 2).takeWhile (· == quote)
        some (extra, rest.drop extra.length)
      else none
  | _ => none

/-- Whether a backslash ends its line, the text behind it being given. -/
def endsLine (text : List Char) : Bool :=
  match skipBlanks text with
  | '\n' :: _ | '\r' :: '\n' :: _ => true
  | _ => false

/-- Reads a string with escapes over several lines. After a backslash at the
end of a line, everything blank is left out. -/
def readBasicLines : (trimming : Bool) → List Char → Option Piece
  | _, [] => none
  | true, '\r' :: '\n' :: rest => readBasicLines true rest
  | false, '\r' :: '\n' :: rest =>
      (fun piece => (piece.cons '\n').cons '\r') <$> readBasicLines false rest
  | _, '\\' :: 'x' :: a :: b :: rest => do
      return (← readBasicLines false rest).cons (← codePoint? [a, b])
  | _, '\\' :: 'u' :: a :: b :: c :: d :: rest => do
      return (← readBasicLines false rest).cons (← codePoint? [a, b, c, d])
  | _, '\\' :: 'U' :: a :: b :: c :: d :: e :: f :: g :: h :: rest => do
      return (← readBasicLines false rest).cons (← codePoint? [a, b, c, d, e, f, g, h])
  | _, '\\' :: letter :: rest =>
      if endsLine (letter :: rest) then readBasicLines true (letter :: rest)
      else do return (← readBasicLines false rest).cons (← escaped? letter)
  | trimming, c :: rest =>
      if trimming && (c == ' ' || c == '\t' || c == '\n') then readBasicLines true rest
      else
        match closing? '"' (c :: rest) with
        | some piece => some piece
        | none =>
            if isControl c && c != '\n' then none
            else (Piece.cons c) <$> readBasicLines false rest

/-- Reads a string without escapes over several lines. -/
def readLiteralLines : List Char → Option Piece
  | [] => none
  | '\r' :: '\n' :: rest =>
      (fun piece => (piece.cons '\n').cons '\r') <$> readLiteralLines rest
  | c :: rest =>
      match closing? '\'' (c :: rest) with
      | some piece => some piece
      | none =>
          if isControl c && c != '\n' then none else (Piece.cons c) <$> readLiteralLines rest

/-- Drops an end of line right behind opening quotes. -/
def skipFirstLineEnd : List Char → List Char
  | '\n' :: rest => rest
  | '\r' :: '\n' :: rest => rest
  | text => text

/-- Reads a string of any kind. -/
def readString : List Char → Option Piece
  | '"' :: '"' :: '"' :: rest => readBasicLines false (skipFirstLineEnd rest)
  | '"' :: rest => readBasic rest
  | '\'' :: '\'' :: '\'' :: rest => readLiteralLines (skipFirstLineEnd rest)
  | '\'' :: rest => readLiteral rest
  | _ => none

-- ================================================================== names

/-- The characters of names without quotes. -/
def isBare (c : Char) : Bool := c.isAlphanum || c == '_' || c == '-'

/-- Reads one name. -/
def readName : List Char → Option (String × List Char)
  | '"' :: rest => do
      let (name, rest) ← readBasic rest
      return (String.ofList name, rest)
  | '\'' :: rest => do
      let (name, rest) ← readLiteral rest
      return (String.ofList name, rest)
  | text =>
      let name := text.takeWhile isBare
      if name.isEmpty then none else some (String.ofList name, text.dropWhile isBare)

/-- How many names there may be with points between them. -/
def maxNames : Nat := 80

/-- Reads names with points between them, at most a number of them: the
first ones and the last one. -/
def readNames : (limit : Nat) → List Char → Option ((List String × String) × List Char)
  | 0, _ => none
  | limit + 1, text => do
      let (name, rest) ← readName (skipBlanks text)
      match skipBlanks rest with
      | '.' :: rest => do
          let ((path, last), rest) ← readNames limit rest
          return ((name :: path, last), rest)
      | rest => return (([], name), rest)

/-- Reads a name, perhaps a dotted one. -/
def readPath (text : List Char) : Option ((List String × String) × List Char) :=
  readNames maxNames text

end LedgerCore.Toml
