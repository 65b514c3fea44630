import Rulebook.Text
import Rulebook.Token

/-!
Cutting an expression text into tokens. Blanks separate tokens and are dropped; everything else
becomes part of one, so cutting never fails: a character that starts no token is a token of its
own, of kind `invalid`. Each token is the longest that its first character allows.
-/

namespace Rulebook

structure Scan where
  kind : Token.Kind
  lexeme : List Char
  source : List Char
  deriving DecidableEq

namespace Scan

def plain (kind : Token.Kind) (lexeme : List Char) : Scan := ⟨kind, lexeme, lexeme⟩

def double? : Char → Char → Option OperatorSign
  | '<', '=' => some .lessEqual
  | '>', '=' => some .greaterEqual
  | '=', '=' => some .equal
  | '!', '=' => some .notEqual
  | '&', '&' => some .and
  | '|', '|' => some .or
  | _, _ => none

def simple? : Char → Option Token.Kind
  | '+' => some (.operator .plus)
  | '-' => some (.operator .minus)
  | '*' => some (.operator .star)
  | '/' => some (.operator .slash)
  | '%' => some (.operator .percent)
  | '<' => some (.operator .less)
  | '>' => some (.operator .greater)
  | '!' => some (.operator .not)
  | '(' => some .leftParen
  | ')' => some .rightParen
  | '[' => some .leftBracket
  | ']' => some .rightBracket
  | '.' => some .dot
  | _ => none

def isQuote (c : Char) : Bool := c = '"' || c = '\''

def isNameStart (c : Char) : Bool := c.isAlpha || c = '_'

def isNamePart (c : Char) : Bool := c.isAlphanum || c = '_'

/-- Digits, and a fraction if a digit follows the point. -/
def number (text : List Char) : Scan :=
  let (whole, rest) := spanDigits text
  match rest with
  | '.' :: fraction =>
    if (fraction.takeWhile Char.isDigit).isEmpty then plain .number whole
    else plain .number (whole ++ '.' :: fraction.takeWhile Char.isDigit)
  | _ => plain .number whole

/-- A text literal runs to the next quote of either kind, which has to be the opening one. -/
def quoted? (quote : Char) (rest : List Char) : Option Scan :=
  let content := rest.takeWhile fun c => !isQuote c
  match rest.dropWhile fun c => !isQuote c with
  | close :: _ =>
    if close = quote then some ⟨.text, content, quote :: content ++ [close]⟩ else none
  | [] => none

def word (text : List Char) : Scan :=
  let name := text.takeWhile isNamePart
  if name = ['t', 'r', 'u', 'e'] || name = ['f', 'a', 'l', 's', 'e'] then plain .boolean name
  else plain .identifier name

def single (c : Char) (rest : List Char) : Scan :=
  match simple? c with
  | some kind => plain kind [c]
  | none =>
    if c.isDigit then number (c :: rest)
    else if isQuote c then (quoted? c rest).getD (plain .invalid [c])
    else if isNameStart c then word (c :: rest)
    else plain .invalid [c]

def head (c : Char) : List Char → Scan
  | [] => single c []
  | next :: rest =>
    match double? c next with
    | some sign => plain (.operator sign) [c, next]
    | none => single c (next :: rest)

end Scan

def byteLength (text : List Char) : Nat :=
  text.foldl (fun bytes c => bytes + c.utf8Size) 0

namespace Token

def scanFrom (position : Nat) : List Char → List Token
  | [] => [endingAt position]
  | c :: rest =>
    if isBlank c then scanFrom (position + c.utf8Size) rest
    else
      let scan := Scan.head c rest
      ⟨scan.kind, String.ofList scan.lexeme, position⟩ ::
        scanFrom (position + byteLength scan.source) (rest.drop (scan.source.length - 1))
  termination_by text => text.length
  decreasing_by
    · simp
    · simp only [List.length_drop, List.length_cons]
      omega

def scan (text : String) : List Token := scanFrom 0 text.toList

end Token
end Rulebook
