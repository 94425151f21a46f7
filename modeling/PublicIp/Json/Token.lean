import PublicIp.Json.Numeral
import PublicIp.Text.Symbols
import PublicIp.Text.Whole

/-!
# Tokens of a JSON text

A text is a list of symbols, which are characters and stray bytes. `tokens` cuts it into tokens and
never fails: where the text stops being JSON there is a last token `junk`. A string literal that is
well formed but stands for no text, since it holds a lone surrogate or a stray byte, is a token like
any other; whether it may stand where it does is decided later.
-/

namespace PublicIp.Json

open Text (Symbol)

inductive Token
  | openArray
  | closeArray
  | openObject
  | closeObject
  | comma
  | colon
  | null
  | bool (value : Bool)
  | number (numeral : Numeral)
  | string (content : Option String)
  | junk
  deriving DecidableEq, Repr

/-- Whether the token is a value of its own. -/
def Token.isScalar : Token → Bool
  | .null | .bool _ | .number _ | .string _ => true
  | _ => false

/-- What one element of a string literal stands for: a character, a code unit given by its number,
or a stray byte. -/
inductive Piece
  | char (c : Char)
  | unit (code : Nat)
  | stray
  deriving DecidableEq, Repr

/-- Where the reader of a literal stands: between elements, after a backslash, or after some of the
four digits of a code unit. -/
inductive LiteralState
  | plain
  | escape
  | hex (count : Nat) (code : Nat)

/-- The escapes of one letter. -/
def shortEscape? : Char → Option Char
  | '"' => some '"'
  | '\\' => some '\\'
  | '/' => some '/'
  | 'b' => some '\x08'
  | 'f' => some '\x0c'
  | 'n' => some '\n'
  | 'r' => some '\r'
  | 't' => some '\t'
  | _ => none

/-- The pieces of a literal after its opening quote, and what follows its closing quote. -/
def pieces : LiteralState → List Piece → List Symbol → Option (List Piece × List Symbol)
  | _, _, [] => none
  | .plain, done, symbol :: rest =>
    match symbol with
    | none => pieces .plain (.stray :: done) rest
    | some c =>
      if c = '"' then some (done.reverse, rest)
      else if c = '\\' then pieces .escape done rest
      else if c < ' ' then none
      else pieces .plain (.char c :: done) rest
  | .escape, done, symbol :: rest =>
    if symbol = some 'u' then pieces (.hex 0 0) done rest
    else
      match symbol.bind shortEscape? with
      | some c => pieces .plain (.char c :: done) rest
      | none => none
  | .hex count code, done, symbol :: rest =>
    match symbol.bind Text.hexDigit? with
    | some digit =>
      if count = 3 then pieces .plain (.unit (16 * code + digit) :: done) rest
      else pieces (.hex (count + 1) (16 * code + digit)) done rest
    | none => none

/-- The text that pieces stand for: a leading and a trailing surrogate make one character, and there
is no text if one of them stands alone or a byte is no part of a character. -/
def content : List Char → List Piece → Option (List Char)
  | done, [] => some done.reverse
  | done, .char c :: rest => content (c :: done) rest
  | _, .stray :: _ => none
  | done, .unit code :: rest =>
    if 0xD800 ≤ code ∧ code < 0xDC00 then
      match rest with
      | .unit low :: rest =>
        if 0xDC00 ≤ low ∧ low < 0xE000 then
          content (Char.ofNat (0x10000 + (code - 0xD800) * 0x400 + (low - 0xDC00)) :: done) rest
        else none
      | _ => none
    else if 0xDC00 ≤ code ∧ code < 0xE000 then none
    else content (Char.ofNat code :: done) rest

/-- The digits a text starts with, and the rest. -/
def digits : List Symbol → List Char × List Symbol
  | some c :: rest =>
    if c.isDigit then
      let (more, rest) := digits rest
      (c :: more, rest)
    else ([], some c :: rest)
  | rest => ([], rest)

/-- The digits after a point, none if there is no point. -/
def fractionPart : List Symbol → Option (List Char × List Symbol)
  | some '.' :: rest =>
    match digits rest with
    | ([], _) => none
    | (fraction, rest) => some (fraction, rest)
  | rest => some ([], rest)

/-- The power of ten, if one is given. -/
def exponentPart : List Symbol → Option (Option Int × List Symbol)
  | some c :: rest =>
    if c = 'e' ∨ c = 'E' then
      let (negative, rest) :=
        match rest with
        | some '+' :: rest => (false, rest)
        | some '-' :: rest => (true, rest)
        | rest => (false, rest)
      match digits rest with
      | ([], _) => none
      | (places, rest) =>
        let size : Int := Nat.ofDigitChars 10 places 0
        some (some (if negative then -size else size), rest)
    else some (none, some c :: rest)
  | rest => some (none, rest)

/-- A number after its sign. A whole part of more than one digit does not start with zero. -/
def numeral? (negative : Bool) (symbols : List Symbol) : Option (Numeral × List Symbol) :=
  match digits symbols with
  | ([], _) => none
  | ('0' :: _ :: _, _) => none
  | (whole, rest) => do
    let (fraction, rest) ← fractionPart rest
    let (exponent, rest) ← exponentPart rest
    some (⟨negative, Nat.ofDigitChars 10 whole 0, fraction, exponent⟩, rest)

def isBlank (symbol : Symbol) : Bool :=
  symbol = some ' ' ∨ symbol = some '\t' ∨ symbol = some '\n' ∨ symbol = some '\r'

/-- The token a text starts with, and the rest. Nothing follows `junk`. -/
def firstToken : List Symbol → Token × List Symbol
  | some '[' :: rest => (.openArray, rest)
  | some ']' :: rest => (.closeArray, rest)
  | some '\x7b' :: rest => (.openObject, rest)
  | some '\x7d' :: rest => (.closeObject, rest)
  | some ',' :: rest => (.comma, rest)
  | some ':' :: rest => (.colon, rest)
  | some 'n' :: some 'u' :: some 'l' :: some 'l' :: rest => (.null, rest)
  | some 't' :: some 'r' :: some 'u' :: some 'e' :: rest => (.bool true, rest)
  | some 'f' :: some 'a' :: some 'l' :: some 's' :: some 'e' :: rest => (.bool false, rest)
  | some '"' :: rest =>
    match pieces .plain [] rest with
    | some (found, rest) => (.string ((content [] found).map String.ofList), rest)
    | none => (.junk, [])
  | some '-' :: rest =>
    match numeral? true rest with
    | some (numeral, rest) => (.number numeral, rest)
    | none => (.junk, [])
  | symbols =>
    match numeral? false symbols with
    | some (numeral, rest) => (.number numeral, rest)
    | none => (.junk, [])

def tokensWithin : Nat → List Token → List Symbol → List Token
  | 0, done, _ => done.reverse
  | fuel + 1, done, symbols =>
    match symbols.dropWhile isBlank with
    | [] => done.reverse
    | symbol :: rest =>
      let (token, rest) := firstToken (symbol :: rest)
      tokensWithin fuel (token :: done) rest

/-- The tokens of a text. A token takes at least one symbol, so there are no more tokens than
symbols. -/
def tokens (symbols : List Symbol) : List Token := tokensWithin symbols.length [] symbols

/-- Two lower-case hexadecimal digits. -/
def hexPair (n : Nat) : List Char := [Nat.digitChar (n / 16 % 16), Nat.digitChar (n % 16)]

/-- Only quotes, backslashes and control characters below the space are escaped. -/
def escaped (c : Char) : List Char :=
  match c with
  | '"' => ['\\', '"']
  | '\\' => ['\\', '\\']
  | '\x08' => ['\\', 'b']
  | '\x0c' => ['\\', 'f']
  | '\n' => ['\\', 'n']
  | '\r' => ['\\', 'r']
  | '\t' => ['\\', 't']
  | c => if c < ' ' then '\\' :: 'u' :: '0' :: '0' :: hexPair c.toNat else [c]

/-- The spelling of a token. A literal that stands for no text is spelled as a lone surrogate. -/
def Token.text : Token → List Char
  | .openArray => ['[']
  | .closeArray => [']']
  | .openObject => ['\x7b']
  | .closeObject => ['\x7d']
  | .comma => [',']
  | .colon => [':']
  | .null => ['n', 'u', 'l', 'l']
  | .bool true => ['t', 'r', 'u', 'e']
  | .bool false => ['f', 'a', 'l', 's', 'e']
  | .number numeral => numeral.text
  | .string (some s) => '"' :: s.toList.flatMap escaped ++ ['"']
  | .string none => ['"', '\\', 'u', 'd', '8', '0', '0', '"']
  | .junk => ['?']

end PublicIp.Json
