import ParcelCodec.Text.Blank
import ParcelCodec.Text.Quoted

/-!
# Tokens of type text

Type text is cut into lexemes: dotted names, the punctuation marks `< > , ? &`, pairs of
brackets, and white space.  A dotted name may have white space around its dots and a pair of
brackets may have some inside; a token is its lexeme without that space.

Every token carries the line and the column where it starts.  Columns count the bytes of the
UTF-8 form.
-/

namespace ParcelCodec

/-! ## §1. Positions and errors. -/

/-- A place in a text, counted from one. -/
structure Position where
  line : Nat
  column : Nat
  deriving Repr, DecidableEq

namespace Position

def start : Position := ⟨1, 1⟩

/-- The place behind one more character. -/
def step (p : Position) (c : Char) : Position :=
  if c = '\n' then ⟨p.line + 1, 1⟩ else ⟨p.line, p.column + c.utf8Size⟩

/-- The place behind some more text. -/
def after (p : Position) (cs : List Char) : Position := cs.foldl step p

end Position

/-- What a grammar wanted to see. -/
inductive Wanted where
  | typeName
  | closer
  deriving Repr, DecidableEq

/-- What is wrong with a type text. -/
inductive SyntaxFault where
  /-- Text that starts no token. -/
  | strayText (text : String)
  /-- The tokens end in the middle of a type. -/
  | endOfTokens
  /-- One token is wanted and another one found. -/
  | expected (wanted : Wanted) (found : String)
  /-- A token behind a complete type. -/
  | unexpectedToken (found : String)
  /-- A primitive type with type arguments. -/
  | primitiveArguments (keyword : String)
  deriving Repr, DecidableEq

namespace SyntaxFault

/-- The fault in words. -/
def message : SyntaxFault → String
  | .strayText text => "Syntax error: " ++ quoted text
  | .endOfTokens => "Unexpected end of tokens"
  | .expected .typeName found => "Expected type name but found " ++ quoted found
  | .expected .closer found => "Expected \">\" but found " ++ quoted found
  | .unexpectedToken found => "Unexpected token " ++ quoted found
  | .primitiveArguments keyword =>
    "Primitive type " ++ quoted keyword ++ " cannot take type arguments"

end SyntaxFault

/-- A fault and the place where it was noticed. -/
structure SyntaxError where
  position : Position
  fault : SyntaxFault
  deriving Repr, DecidableEq

/-- The error in words. -/
def SyntaxError.message (e : SyntaxError) : String :=
  "Parse error at line " ++ toString e.position.line ++ ", column " ++ toString e.position.column
    ++ ": " ++ e.fault.message

namespace TypeSyntax

/-- A token: its text without inner white space, and where it starts. -/
structure Token where
  text : String
  position : Position
  deriving Repr, DecidableEq

namespace Token

/-! ## §2. Lexemes. -/

/-- The first character of an identifier. -/
def isNameStart (c : Char) : Bool :=
  ('a' ≤ c && c ≤ 'z') || ('A' ≤ c && c ≤ 'Z') || c == '_' || c == '$'

/-- Any other character of an identifier. -/
def isNamePart (c : Char) : Bool :=
  isNameStart c || ('0' ≤ c && c ≤ '9')

/-- A punctuation mark. -/
def isMark (c : Char) : Bool :=
  c == '<' || c == '>' || c == ',' || c == '?' || c == '&'

/-- The identifier at the start of a text, and the rest. -/
def identifier? : List Char → Option (List Char × List Char)
  | [] => none
  | c :: rest =>
    if isNameStart c then some (c :: rest.takeWhile isNamePart, rest.dropWhile isNamePart)
    else none

/-- A dot with white space around it and an identifier behind it, and the rest. -/
def dotted? (cs : List Char) : Option (List Char × List Char) :=
  match cs.dropWhile Text.isBlank with
  | '.' :: rest =>
    match identifier? (rest.dropWhile Text.isBlank) with
    | some (word, rest') =>
      some (cs.takeWhile Text.isBlank ++ '.' :: rest.takeWhile Text.isBlank ++ word, rest')
    | none => none
  | _ => none

/-- As many dotted identifiers as follow, at most `n`. -/
def dottedRun : (n : Nat) → List Char → List Char × List Char
  | 0, cs => ([], cs)
  | n + 1, cs =>
    match dotted? cs with
    | some (part, rest) =>
      let (more, rest') := dottedRun n rest
      (part ++ more, rest')
    | none => ([], cs)

/-- The lexeme at the start of a text, and the rest. -/
def lexeme? (cs : List Char) : Option (List Char × List Char) :=
  match identifier? cs with
  | some (word, rest) =>
    let (more, rest') := dottedRun rest.length rest
    some (word ++ more, rest')
  | none =>
    -- No other lexeme starts like a name, so the order of these tests does not matter.
    match cs with
    | [] => none
    | c :: rest =>
      if isMark c then some ([c], rest)
      else if c = '[' then
        match rest.dropWhile Text.isBlank with
        | ']' :: rest' => some (c :: rest.takeWhile Text.isBlank ++ [']'], rest')
        | _ => none
      else if Text.isBlank c then
        some (c :: rest.takeWhile Text.isBlank, rest.dropWhile Text.isBlank)
      else none

/-- The text before the next lexeme. -/
def stray : List Char → List Char
  | [] => []
  | c :: rest => if (lexeme? (c :: rest)).isSome then [] else c :: stray rest

/-! ## §3. The token list. -/

/-- The tokens of a text that starts at a place, at most `n` of them; an empty token marks the
end.  Lexemes of white space are no tokens. -/
def scanFrom : (n : Nat) → Position → List Char → Except SyntaxError (List Token)
  | _, p, [] => .ok [⟨"", p⟩]
  | 0, p, cs => .error ⟨p, .strayText (.ofList cs)⟩
  | n + 1, p, cs =>
    match lexeme? cs with
    | none => .error ⟨p, .strayText (.ofList (stray cs))⟩
    | some (part, rest) =>
      match scanFrom n (p.after part) rest with
      | .error e => .error e
      | .ok tokens =>
        if part.all Text.isBlank then .ok tokens
        else .ok (⟨.ofList (part.filter fun c => !Text.isBlank c), p⟩ :: tokens)

/-- The tokens of a text, with an empty one at its end.  A lexeme is never empty, so there are at
most as many as there are characters. -/
def scan (text : String) : Except SyntaxError (List Token) :=
  scanFrom text.length .start text.toList

end Token

end TypeSyntax

end ParcelCodec
