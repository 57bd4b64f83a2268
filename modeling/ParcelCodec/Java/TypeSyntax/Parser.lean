import ParcelCodec.Step
import ParcelCodec.Text.Segments
import ParcelCodec.Java.TypeSyntax
import ParcelCodec.Java.TypeSyntax.Token

/-!
# Parsing type text

The grammar, over tokens:

```text
Type ::= '?' | '?' 'extends' Ref | '?' 'super' Ref | Ref
Ref  ::= primitive '[]'* | name [ '<' Type (',' Type)* '>' ] '[]'*
```

A complete type is followed by an empty token; a list of bounds is `Ref ('&' Ref)*`.  Where the
tokens run out the error stands at the last token there is.
-/

namespace ParcelCodec.TypeSyntax

/-- A parser: a step over the tokens still to be read. -/
abbrev Parser (α : Type) := Step (List Token) SyntaxError α

/-- Where an error stands when the tokens run out. -/
def lastPosition (tokens : List Token) : Position :=
  (tokens.getLast?.map Token.position).getD ⟨0, 0⟩

/-- A dotted name of identifiers. -/
def isTypeName (text : String) : Bool :=
  (Text.segments '.' text.toList).all fun segment =>
    match segment with
    | [] => false
    | c :: rest => Token.isNameStart c && rest.all Token.isNamePart

namespace Parser

/-! ## §1. Single tokens. -/

/-- The token at hand. -/
def current (last : Position) : Parser Token := fun tokens =>
  match tokens with
  | [] => (.error ⟨last, .endOfTokens⟩, [])
  | t :: rest => (.ok t, t :: rest)

/-- Steps over the token at hand if it has this text. -/
def eat (last : Position) (text : String) : Parser Bool := fun tokens =>
  match tokens with
  | [] => (.error ⟨last, .endOfTokens⟩, [])
  | t :: rest => if t.text = text then (.ok true, rest) else (.ok false, t :: rest)

/-- Steps over the token at hand, which must pass a test. -/
def expect (last : Position) (wanted : Wanted) (test : String → Bool) : Parser Token := fun tokens =>
  match tokens with
  | [] => (.error ⟨last, .endOfTokens⟩, [])
  | t :: rest =>
    if test t.text then (.ok t, rest)
    else (.error ⟨t.position, .expected wanted t.text⟩, t :: rest)

/-- As many array brackets as follow. -/
def brackets (last : Position) (ty : TypeSyntax) : Parser TypeSyntax := fun tokens =>
  match tokens with
  | [] => (.error ⟨last, .endOfTokens⟩, [])
  | t :: rest => if t.text = "[]" then brackets last (.array ty) rest else (.ok ty, t :: rest)

/-! ## §2. Types. -/

mutual

/-- A type or a wildcard; `fuel` bounds the nesting. -/
def type (last : Position) : (fuel : Nat) → Parser TypeSyntax
  | 0 => Step.fail ⟨last, .endOfTokens⟩
  | fuel + 1 => do
    if ← eat last "?" then
      if ← eat last "extends" then
        return .wildcard (some (← reference last fuel)) none
      else if ← eat last "super" then
        return .wildcard none (some (← reference last fuel))
      else return .wildcard none none
    else reference last fuel

/-- A type that is no wildcard. -/
def reference (last : Position) : (fuel : Nat) → Parser TypeSyntax
  | 0 => Step.fail ⟨last, .endOfTokens⟩
  | fuel + 1 => do
    let name ← expect last .typeName isTypeName
    match Java.Primitive.ofKeyword? name.text with
    | some p =>
      let ty ← brackets last (.primitive p)
      -- Only a bare primitive asks about type arguments; behind brackets the mark is left standing.
      match ty with
      | .primitive _ =>
        if ← eat last "<" then
          Step.fail ⟨name.position, .primitiveArguments name.text⟩
        else return ty
      | _ => return ty
    | none =>
      let args ← if ← eat last "<" then arguments last fuel else pure []
      brackets last (.named name.text args)

/-- The type arguments behind an opening mark, up to the closing one. -/
def arguments (last : Position) : (fuel : Nat) → Parser (List TypeSyntax)
  | 0 => Step.fail ⟨last, .endOfTokens⟩
  | fuel + 1 => do
    let first ← type last fuel
    if ← eat last "," then
      return first :: (← arguments last fuel)
    else
      let _ ← expect last .closer (· == ">")
      return [first]

end

/-- The bounds behind the first one. -/
def moreBounds (last : Position) (fuel : Nat) : (n : Nat) → Parser (List TypeSyntax)
  | 0 => pure []
  | n + 1 => do
    if ← eat last "&" then
      let bound ← reference last fuel
      return bound :: (← moreBounds last fuel n)
    else return []

/-- The empty token at the end. -/
def finish (last : Position) : Parser Unit := do
  let t ← current last
  if t.text = "" then return () else Step.fail ⟨t.position, .unexpectedToken t.text⟩

/-- Enough nesting for a number of tokens: every third level steps over one. -/
def enough (tokens : List Token) : Nat := 3 * tokens.length + 3

end Parser

/-! ## §3. Whole texts. -/

/-- The type that a token list spells. -/
def ofTokens (tokens : List Token) : Except SyntaxError TypeSyntax :=
  let last := lastPosition tokens
  let whole : Parser TypeSyntax := do
    let ty ← Parser.type last (Parser.enough tokens)
    Parser.finish last
    return ty
  (whole tokens).1

/-- The bounds that a token list spells. -/
def boundsOfTokens (tokens : List Token) : Except SyntaxError (List TypeSyntax) :=
  let last := lastPosition tokens
  let whole : Parser (List TypeSyntax) := do
    let first ← Parser.reference last (Parser.enough tokens)
    let rest ← Parser.moreBounds last (Parser.enough tokens) tokens.length
    Parser.finish last
    return first :: rest
  (whole tokens).1

/-- The type that a text spells. -/
def parse (text : String) : Except SyntaxError TypeSyntax :=
  Token.scan text >>= ofTokens

/-- The bounds that a text spells. -/
def parseBounds (text : String) : Except SyntaxError (List TypeSyntax) :=
  Token.scan text >>= boundsOfTokens

end ParcelCodec.TypeSyntax
