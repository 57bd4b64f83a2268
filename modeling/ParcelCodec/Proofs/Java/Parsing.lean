import Mathlib.Data.List.Basic
import ParcelCodec.Proofs.Java.Scanning

/-!
# The parser of types accepts its grammar

Whatever the parser reads off the front of a token list derives what it answers (`Sound`), and
whatever the grammar derives is read off the front of any token list that does not go on in the same
type (`Stops`).  The parser is bounded in depth; once the bound is above three times the number of
tokens it has no say in the answer any more, be it a type or an error.

Main statement: `parsed_iff_derived`.
-/

namespace ParcelCodec.TypeSyntax

/-! ## §1. What is read derives the answer. -/

/-- What a parser steps over derives its answer. -/
def Sound {α : Type} (p : Parser α) (derives : List String → α → Prop) : Prop :=
  ∀ tokens a rest, p tokens = (.ok a, rest) →
    ∃ before, tokens = before ++ rest ∧ derives (before.map Token.text) a

namespace Sound

variable {α β : Type}

/-- A parser that reads nothing derives its answer from no tokens. -/
theorem pure {a : α} {derives : List String → α → Prop} (h : derives [] a) :
    Sound (Pure.pure a) derives := by
  intro tokens b rest run
  cases run
  exact ⟨[], rfl, h⟩

theorem fail {e : SyntaxError} {derives : List String → α → Prop} :
    Sound (Step.fail e) derives := by
  intro tokens b rest run
  cases run

/-- What two parsers in a row have read derives the answer together. -/
theorem bind {p : Parser α} {next : α → Parser β} {derives : List String → α → Prop}
    {concludes : List String → β → Prop} (first : Sound p derives)
    (second : ∀ a ws, derives ws a → Sound (next a) fun ws' b => concludes (ws ++ ws') b) :
    Sound (p >>= next) concludes := by
  intro tokens b rest run
  obtain ⟨a, between, ran, runs⟩ := Step.bind_eq_ok run
  obtain ⟨before, rfl, derived⟩ := first tokens a between ran
  obtain ⟨before', rfl, concluded⟩ := second a _ derived between b rest runs
  exact ⟨before ++ before', (List.append_assoc ..).symm, by rwa [List.map_append]⟩

/-- A weaker judgment is derived as well. -/
theorem mono {p : Parser α} {derives concludes : List String → α → Prop} (h : Sound p derives)
    (weaker : ∀ ws a, derives ws a → concludes ws a) : Sound p concludes := by
  intro tokens a rest run
  obtain ⟨before, eq, derived⟩ := h tokens a rest run
  exact ⟨before, eq, weaker _ _ derived⟩

/-- A parser only takes tokens away. -/
theorem length_le {p : Parser α} {derives : List String → α → Prop} (h : Sound p derives)
    {tokens rest : List Token} {a : α} (run : p tokens = (.ok a, rest)) :
    rest.length ≤ tokens.length := by
  obtain ⟨before, rfl, _⟩ := h tokens a rest run
  simp

end Sound

namespace Parser

variable {last : Position}

theorem eat_of_eq {text : String} {t : Token} (h : t.text = text) (rest : List Token) :
    eat last text (t :: rest) = (.ok true, rest) :=
  if_pos h

theorem eat_of_ne {text : String} {t : Token} (h : t.text ≠ text) (rest : List Token) :
    eat last text (t :: rest) = (.ok false, t :: rest) :=
  if_neg h

/-- A token that passes the test is taken. -/
theorem expect_of_pass (wanted : Wanted) {test : String → Bool} {t : Token}
    (h : test t.text = true) (rest : List Token) :
    expect last wanted test (t :: rest) = (.ok t, rest) :=
  if_pos h

/-- A pair of brackets makes an array type of what stands in front of it. -/
theorem brackets_of_eq {t : Token} (h : t.text = "[]") (ty : TypeSyntax) (rest : List Token) :
    brackets last ty (t :: rest) = brackets last (.array ty) rest :=
  if_pos h

/-- Anything but a pair of brackets ends the array type. -/
theorem brackets_of_ne {t : Token} (h : t.text ≠ "[]") (ty : TypeSyntax) (rest : List Token) :
    brackets last ty (t :: rest) = (.ok ty, t :: rest) :=
  if_neg h

/-- A word is taken if it was hit, and nothing is taken otherwise. -/
theorem sound_eat (text : String) :
    Sound (eat last text) fun ws hit => ws = if hit then [text] else [] := by
  intro tokens hit rest run
  rcases tokens with _ | ⟨t, tokens⟩
  · cases run
  · by_cases same : t.text = text
    · rw [eat_of_eq same] at run
      cases run
      exact ⟨[t], rfl, congrArg (· :: []) same⟩
    · rw [eat_of_ne same] at run
      cases run
      exact ⟨[], rfl, rfl⟩

/-- The one token that is taken passes the test. -/
theorem sound_expect (wanted : Wanted) (test : String → Bool) :
    Sound (expect last wanted test) fun ws t => ws = [t.text] ∧ test t.text = true := by
  intro tokens found rest run
  rcases tokens with _ | ⟨t, tokens⟩
  · cases run
  · by_cases passes : test t.text = true
    · rw [expect_of_pass wanted passes] at run
      cases run
      exact ⟨[_], rfl, rfl, passes⟩
    · unfold expect at run
      simp only [passes, Bool.false_eq_true, if_false] at run
      cases run

/-- The tokens that are taken are pairs of brackets, one for each dimension. -/
theorem sound_brackets (ty : TypeSyntax) :
    Sound (brackets last ty) fun ws t => ∃ n, ws = List.replicate n "[]" ∧ t = arrays n ty := by
  intro tokens
  induction tokens generalizing ty with
  | nil => intro t rest run; cases run
  | cons token tokens ih =>
    intro t rest run
    by_cases more : token.text = "[]"
    · rw [brackets_of_eq more] at run
      obtain ⟨before, rfl, n, texts, rfl⟩ := ih (.array ty) t rest run
      exact ⟨token :: before, rfl, n + 1, by simp [more, texts, List.replicate_succ], rfl⟩
    · rw [brackets_of_ne more] at run
      cases run
      exact ⟨[], rfl, 0, rfl, rfl⟩

/-! ## §2. Types and their arguments. -/

/-- Arguments and the mark that closes them. -/
def Closed (ws : List String) (ts : List TypeSyntax) : Prop :=
  ∃ inner, ws = inner ++ [">"] ∧ AreArguments inner ts

section Levels

variable {fuel : Nat} (typed : Sound (type last fuel) IsType)
  (referred : Sound (reference last fuel) IsReference)
  (argued : Sound (arguments last fuel) Closed)

include referred in
/-- What is read as a type derives it, wildcards included, if every reference does. -/
theorem sound_type : Sound (type last (fuel + 1)) IsType := by
  unfold type
  refine (sound_eat "?").bind fun mark ws hws => ?_
  cases mark with
  | false =>
    subst hws
    exact referred.mono fun _ _ h => .reference h
  | true =>
    subst hws
    refine (sound_eat "extends").bind fun upper ws hws => ?_
    cases upper with
    | true =>
      subst hws
      exact referred.bind fun t ws h => .pure (by simpa using IsType.upper h)
    | false =>
      subst hws
      refine (sound_eat "super").bind fun lower ws hws => ?_
      cases lower with
      | true =>
        subst hws
        exact referred.bind fun t ws h => .pure (by simpa using IsType.lower h)
      | false =>
        subst hws
        exact .pure IsType.wildcard

/-- A primitive is read with the brackets behind it, and it takes no arguments. -/
theorem sound_primitive (name : Token) (p : Java.Primitive)
    (keyword : Java.Primitive.ofKeyword? name.text = some p) :
    Sound (do
      let ty ← brackets last (.primitive p)
      match ty with
      | .primitive _ =>
        if ← eat last "<" then
          Step.fail ⟨name.position, .primitiveArguments name.text⟩
        else return ty
      | _ => return ty) fun ws t => IsReference ([name.text] ++ ws) t := by
  have spelled : p.keyword = name.text := by
    simpa using List.find?_some keyword
  refine (sound_brackets _).bind fun ty ws ⟨n, hws, hty⟩ => ?_
  have derived : IsReference (name.text :: ws) ty := by
    rw [hws, hty, ← spelled]
    exact .primitive p n
  cases ty with
  | primitive q =>
    refine (sound_eat "<").bind fun open_ ws' hws' => ?_
    cases open_ with
    | true => exact .fail
    | false =>
      subst hws'
      exact .pure (by simpa using derived)
  | _ => exact .pure (by simpa using derived)

include argued in
/-- What is read as a reference derives it, if its arguments do. -/
theorem sound_reference : Sound (reference last (fuel + 1)) IsReference := by
  unfold reference
  refine (sound_expect _ _).bind fun name ws ⟨hws, passes⟩ => ?_
  subst hws
  cases keyword : Java.Primitive.ofKeyword? name.text with
  | some p => exact sound_primitive name p keyword
  | none =>
    have isName : IsName name.text := ⟨(isTypeName_iff _).mp passes, keyword⟩
    refine (sound_eat "<").bind fun opened ws hws => ?_
    cases opened with
    | true =>
      subst hws
      refine argued.bind fun args ws ⟨inner, hws, derived⟩ => ?_
      refine (sound_brackets _).mono fun ws' t ⟨n, hws', ht⟩ => ?_
      subst hws hws' ht
      simpa using IsReference.generic isName derived n
    | false =>
      subst hws
      show Sound (brackets last (.named name.text [])) _
      refine (sound_brackets _).mono fun ws t ⟨n, hws, ht⟩ => ?_
      subst hws ht
      exact .name isName n

include typed argued in
/-- What is read as arguments derives them, up to the bracket that closes them. -/
theorem sound_arguments : Sound (arguments last (fuel + 1)) Closed := by
  unfold arguments
  refine typed.bind fun first ws derived => ?_
  refine (sound_eat ",").bind fun comma ws' hws' => ?_
  cases comma with
  | true =>
    subst hws'
    refine argued.bind fun rest ws'' ⟨inner, hws'', more⟩ => .pure ?_
    exact ⟨ws ++ "," :: inner, by simp [hws''], .more derived more⟩
  | false =>
    subst hws'
    refine (sound_expect _ _).bind fun closer ws'' ⟨hws'', closes⟩ => .pure ?_
    refine ⟨ws, ?_, .last derived⟩
    simp [hws'', beq_iff_eq.mp closes]

end Levels

/-- Whatever the parser reads derives its answer, at any depth. -/
theorem sound (fuel : Nat) :
    Sound (type last fuel) IsType ∧ Sound (reference last fuel) IsReference ∧
      Sound (arguments last fuel) Closed := by
  induction fuel with
  | zero => exact ⟨.fail, .fail, .fail⟩
  | succ fuel ih =>
    obtain ⟨typed, referred, argued⟩ := ih
    exact ⟨sound_type referred, sound_reference argued, sound_arguments typed argued⟩

/-! ## §3. What derives a type is read as that type. -/

/-- Token lists that do not go on in a type that ends before them. -/
def Stops (tokens : List Token) : Prop :=
  ∃ t rest, tokens = t :: rest ∧ t.text ∉ ["<", "[]", "extends", "super"]

/-- A type ends before these four texts. -/
theorem stops_cons (t : Token) (h : t.text ∈ ["", ",", ">", "&"]) (rest : List Token) :
    Stops (t :: rest) := by
  refine ⟨t, rest, rfl, ?_⟩
  revert h
  generalize t.text = text
  intro h
  simp only [List.mem_cons, List.not_mem_nil, or_false] at h
  rcases h with rfl | rfl | rfl | rfl <;> decide

/-- Where a type has to stop, none of the words that would carry it on is hit. -/
theorem Stops.eat {rest : List Token} (h : Stops rest) {text : String}
    (among : text ∈ ["<", "[]", "extends", "super"]) : eat last text rest = (.ok false, rest) := by
  obtain ⟨t, after, rfl, apart⟩ := h
  exact eat_of_ne (fun same => apart (same ▸ among)) after

/-- All pairs of brackets are read, and no token behind them. -/
theorem brackets_complete {rest : List Token} (stops : Stops rest) {n : Nat} :
    ∀ {before : List Token} {ty : TypeSyntax}, before.map Token.text = List.replicate n "[]" →
      brackets last ty (before ++ rest) = (.ok (arrays n ty), rest) := by
  induction n with
  | zero =>
    intro before ty texts
    obtain ⟨t, after, rfl, apart⟩ := stops
    obtain rfl : before = [] := by simpa using texts
    exact brackets_of_ne (fun same => apart (by rw [same]; decide)) ty after
  | succ n ih =>
    intro before ty texts
    rw [List.replicate_succ] at texts
    obtain ⟨t, before, rfl, same, texts⟩ := List.map_eq_cons_iff.mp texts
    rw [List.cons_append, brackets_of_eq same, ih texts]
    rfl

/-- What stands in front of brackets or of the end is no opening mark. -/
theorem eat_opening {rest : List Token} (stops : Stops rest) {n : Nat} {before : List Token}
    (texts : before.map Token.text = List.replicate n "[]") :
    eat last "<" (before ++ rest) = (.ok false, before ++ rest) := by
  rcases before with _ | ⟨t, before⟩
  · exact stops.eat (by decide)
  · have among : t.text ∈ List.replicate n "[]" := by
      rw [← texts, List.map_cons]
      exact List.mem_cons_self
    have bracket : t.text = "[]" := List.eq_of_mem_replicate among
    exact eat_of_ne (by rw [bracket]; decide) _

mutual

/-- The tokens of a type are read as that type, if the depth is three times their number. -/
theorem type_complete : ∀ {ws : List String} {t : TypeSyntax}, IsType ws t →
    ∀ {before rest : List Token} {fuel : Nat}, before.map Token.text = ws → Stops rest →
      3 * before.length ≤ fuel → type last fuel (before ++ rest) = (.ok t, rest)
  | _, _, .wildcard, before, rest, fuel, spelled, stops, enough => by
    obtain ⟨mark, before, rfl, same, nothing⟩ := List.map_eq_cons_iff.mp spelled
    obtain rfl : before = [] := List.map_eq_nil_iff.mp nothing
    obtain ⟨fuel, rfl⟩ : ∃ n, fuel = n + 1 := ⟨fuel - 1, by simp at enough; omega⟩
    have opened : eat last "?" (mark :: rest) = (.ok true, rest) := eat_of_eq same rest
    -- Nothing that may follow a type is taken for the start of a bound.
    have noUpper : eat last "extends" rest = (.ok false, rest) := stops.eat (by decide)
    have noLower : eat last "super" rest = (.ok false, rest) := stops.eat (by decide)
    simp [type, Step.bind_ok opened, Step.bind_ok noUpper, Step.bind_ok noLower]
  | _, _, .upper bound, before, rest, fuel, spelled, stops, enough => by
    obtain ⟨mark, before, rfl, same, spelled'⟩ := List.map_eq_cons_iff.mp spelled
    obtain ⟨word, before, rfl, same', spelled''⟩ := List.map_eq_cons_iff.mp spelled'
    simp only [List.length_cons] at enough
    obtain ⟨fuel, rfl⟩ : ∃ n, fuel = n + 1 := ⟨fuel - 1, by omega⟩
    have opened : eat last "?" (mark :: word :: (before ++ rest)) = (.ok true, _) :=
      eat_of_eq same _
    have upper : eat last "extends" (word :: (before ++ rest)) = (.ok true, _) :=
      eat_of_eq same' _
    have referred : reference last fuel (before ++ rest) = (.ok _, rest) :=
      reference_complete bound spelled'' stops (by omega)
    simp [type, Step.bind_ok opened, Step.bind_ok upper, -bind_pure_comp, Step.bind_ok referred]
  | _, _, .lower bound, before, rest, fuel, spelled, stops, enough => by
    obtain ⟨mark, before, rfl, same, spelled'⟩ := List.map_eq_cons_iff.mp spelled
    obtain ⟨word, before, rfl, same', spelled''⟩ := List.map_eq_cons_iff.mp spelled'
    simp only [List.length_cons] at enough
    obtain ⟨fuel, rfl⟩ : ∃ n, fuel = n + 1 := ⟨fuel - 1, by omega⟩
    have opened : eat last "?" (mark :: word :: (before ++ rest)) = (.ok true, _) :=
      eat_of_eq same _
    have noUpper : eat last "extends" (word :: (before ++ rest)) = (.ok false, _) :=
      eat_of_ne (by rw [same']; decide) _
    have lower : eat last "super" (word :: (before ++ rest)) = (.ok true, _) :=
      eat_of_eq same' _
    have referred : reference last fuel (before ++ rest) = (.ok _, rest) :=
      reference_complete bound spelled'' stops (by omega)
    simp [type, Step.bind_ok opened, Step.bind_ok noUpper, Step.bind_ok lower, -bind_pure_comp,
      Step.bind_ok referred]
  | _, _, .reference plain, before, rest, fuel, spelled, stops, enough => by
    obtain ⟨name, ws, rfl, isName⟩ := plain.exists_head
    obtain ⟨head, before, rfl, same, _⟩ := List.map_eq_cons_iff.mp spelled
    simp only [List.length_cons] at enough
    obtain ⟨fuel, rfl⟩ : ∃ n, fuel = n + 1 := ⟨fuel - 1, by omega⟩
    -- A type that is no wildcard starts with a name, which is never the mark of one.
    have noMark : eat last "?" (head :: (before ++ rest)) = (.ok false, _) :=
      eat_of_ne (fun mark => absurd isName (by rw [← same, mark]; decide)) _
    have referred : reference last fuel (head :: before ++ rest) = (.ok _, rest) :=
      reference_complete plain spelled stops (by rw [List.length_cons]; omega)
    simpa [type, Step.bind_ok noMark] using referred
termination_by _ _ _ _ _ fuel => fuel

/-- The tokens of a reference are read as that reference. -/
theorem reference_complete : ∀ {ws : List String} {t : TypeSyntax}, IsReference ws t →
    ∀ {before rest : List Token} {fuel : Nat}, before.map Token.text = ws → Stops rest →
      3 * before.length ≤ fuel + 1 → reference last fuel (before ++ rest) = (.ok t, rest)
  | _, _, .primitive p n, before, rest, fuel, spelled, stops, enough => by
    obtain ⟨name, before, rfl, same, marks⟩ := List.map_eq_cons_iff.mp spelled
    simp only [List.length_cons] at enough
    obtain ⟨fuel, rfl⟩ : ∃ n, fuel = n + 1 := ⟨fuel - 1, by omega⟩
    have named : expect last .typeName isTypeName (name :: (before ++ rest)) = (.ok name, _) :=
      expect_of_pass _ (by rw [same]; exact isTypeName_keyword p) _
    have keyword : Java.Primitive.ofKeyword? name.text = some p := by
      rw [same]
      exact Java.Primitive.ofKeyword?_keyword p
    have nested : brackets last (.primitive p) (before ++ rest) = (.ok (arrays n _), rest) :=
      brackets_complete stops marks
    have noMark : eat last "<" rest = (.ok false, rest) := stops.eat (by decide)
    -- A primitive without brackets is looked at once more, for arguments that it must not have.
    cases n with
    | zero =>
      simp [reference, Step.bind_ok named, keyword, Step.bind_ok nested, arrays,
        Step.bind_ok noMark]
    | succ n =>
      rw [arrays_succ] at nested ⊢
      simp [reference, Step.bind_ok named, keyword, Step.bind_ok nested]
  | _, _, .name isName n, before, rest, fuel, spelled, stops, enough => by
    obtain ⟨name, before, rfl, same, marks⟩ := List.map_eq_cons_iff.mp spelled
    simp only [List.length_cons] at enough
    obtain ⟨fuel, rfl⟩ : ∃ n, fuel = n + 1 := ⟨fuel - 1, by omega⟩
    subst same
    have named : expect last .typeName isTypeName (name :: (before ++ rest)) = (.ok name, _) :=
      expect_of_pass _ (isTypeName_of_isName isName) _
    have noMark : eat last "<" (before ++ rest) = (.ok false, before ++ rest) :=
      eat_opening stops marks
    have nested : brackets last (.named name.text []) (before ++ rest)
        = (.ok (arrays n _), rest) := brackets_complete stops marks
    simp [reference, Step.bind_ok named, isName.2, Step.bind_ok noMark, nested]
  | _, _, @IsReference.generic _ _ ts isName args n, before, rest, fuel, spelled, stops, enough => by
    obtain ⟨name, before, rfl, same, spelled'⟩ := List.map_eq_cons_iff.mp spelled
    obtain ⟨opener, before, rfl, same', spelled''⟩ := List.map_eq_cons_iff.mp spelled'
    obtain ⟨inner, behind, rfl, inners, behinds⟩ := List.map_eq_append_iff.mp spelled''
    obtain ⟨closer, before, rfl, closes, marks⟩ := List.map_eq_cons_iff.mp behinds
    simp only [List.length_cons, List.length_append] at enough
    obtain ⟨fuel, rfl⟩ : ∃ n, fuel = n + 1 := ⟨fuel - 1, by omega⟩
    subst same
    have named : expect last .typeName isTypeName
        (name :: opener :: (inner ++ closer :: (before ++ rest))) = (.ok name, _) :=
      expect_of_pass _ (isTypeName_of_isName isName) _
    have opened : eat last "<" (opener :: (inner ++ closer :: (before ++ rest))) = (.ok true, _) :=
      eat_of_eq same' _
    have argued : arguments last fuel (inner ++ closer :: (before ++ rest))
        = (.ok ts, before ++ rest) := arguments_complete args inners closes (by omega)
    have nested : brackets last (.named name.text ts) (before ++ rest)
        = (.ok (arrays n _), rest) := brackets_complete stops marks
    simp [reference, Step.bind_ok named, isName.2, Step.bind_ok opened, Step.bind_ok argued, nested]
termination_by _ _ _ _ _ fuel => fuel

/-- The tokens of arguments are read as these, with the bracket that closes them. -/
theorem arguments_complete : ∀ {ws : List String} {ts : List TypeSyntax}, AreArguments ws ts →
    ∀ {before rest : List Token} {closer : Token} {fuel : Nat}, before.map Token.text = ws →
      closer.text = ">" → 3 * before.length + 1 ≤ fuel →
        arguments last fuel (before ++ closer :: rest) = (.ok ts, rest)
  | _, _, .last only, before, rest, closer, fuel, spelled, closes, enough => by
    obtain ⟨fuel, rfl⟩ : ∃ n, fuel = n + 1 := ⟨fuel - 1, by omega⟩
    have stops : Stops (closer :: rest) := stops_cons closer (by simp [closes]) rest
    have typed : type last fuel (before ++ closer :: rest) = (.ok _, closer :: rest) :=
      type_complete only spelled stops (by omega)
    have noComma : eat last "," (closer :: rest) = (.ok false, _) :=
      eat_of_ne (by rw [closes]; decide) _
    have closed : expect last .closer (· == ">") (closer :: rest) = (.ok closer, rest) :=
      expect_of_pass _ (by rw [closes]; decide) _
    simp [arguments, Step.bind_ok typed, Step.bind_ok noComma, -bind_pure_comp,
      Step.bind_ok closed]
  | _, _, .more first more, before, rest, closer, fuel, spelled, closes, enough => by
    obtain ⟨front, behind, rfl, fronts, behinds⟩ := List.map_eq_append_iff.mp spelled
    obtain ⟨comma, back, rfl, same, backs⟩ := List.map_eq_cons_iff.mp behinds
    simp only [List.length_append, List.length_cons] at enough
    obtain ⟨fuel, rfl⟩ : ∃ n, fuel = n + 1 := ⟨fuel - 1, by omega⟩
    have stops : Stops (comma :: (back ++ closer :: rest)) := stops_cons comma (by simp [same]) _
    have typed : type last fuel (front ++ comma :: (back ++ closer :: rest))
        = (.ok _, comma :: (back ++ closer :: rest)) :=
      type_complete first fronts stops (by omega)
    have separated : eat last "," (comma :: (back ++ closer :: rest)) = (.ok true, _) :=
      eat_of_eq same _
    have argued : arguments last fuel (back ++ closer :: rest) = (.ok _, rest) :=
      arguments_complete more backs closes (by omega)
    simp [arguments, Step.bind_ok typed, Step.bind_ok separated, -bind_pure_comp,
      Step.bind_ok argued]
termination_by _ _ _ _ _ _ fuel => fuel

end

/-! ## §4. The depth has no say. -/

/-- Two parsers that start alike and go on alike. -/
theorem bind_agree {α β : Type} {p p' : Parser α} {next next' : α → Parser β}
    {tokens : List Token} (first : p tokens = p' tokens)
    (on : ∀ a rest, p tokens = (.ok a, rest) → next a rest = next' a rest) :
    (p >>= next) tokens = (p' >>= next') tokens := by
  rcases ran : p tokens with ⟨e | a, rest⟩
  · rw [Step.bind_error ran, Step.bind_error (first ▸ ran)]
  · rw [Step.bind_ok ran, Step.bind_ok (first ▸ ran), on a rest ran]

/-- What is read behind a mark if it is there, and otherwise from where it would be. -/
theorem agree_behind {β : Type} {text : String} {met met' missed missed' : Parser β}
    {tokens : List Token}
    (hit : ∀ rest, rest.length + 1 = tokens.length → met rest = met' rest)
    (miss : missed tokens = missed' tokens) :
    (do if ← eat last text then met else missed) tokens
      = (do if ← eat last text then met' else missed') tokens := by
  refine bind_agree rfl fun mark rest ran => ?_
  obtain ⟨before, rfl, texts⟩ := sound_eat text tokens mark rest ran
  cases mark with
  | true =>
    obtain ⟨t, rfl, _⟩ := List.map_eq_singleton_iff.mp texts
    exact hit rest rfl
  | false =>
    obtain rfl : before = [] := List.map_eq_nil_iff.mp texts
    exact miss

section Levels

variable {fuel fuel' : Nat}

/-- Two depths that read references alike read types alike. -/
theorem agree_type {tokens : List Token}
    (referred : ∀ rest : List Token, rest.length ≤ tokens.length →
      reference last fuel rest = reference last fuel' rest) :
    type last (fuel + 1) tokens = type last (fuel' + 1) tokens := by
  unfold type
  refine agree_behind (fun rest shorter => ?_) (referred tokens (Nat.le_refl _))
  refine agree_behind (fun rest' shorter' => ?_) ?_
  · exact bind_agree (referred rest' (by omega)) fun _ _ _ => rfl
  · refine agree_behind (fun rest' shorter' => ?_) rfl
    exact bind_agree (referred rest' (by omega)) fun _ _ _ => rfl

/-- Two depths that read arguments alike read references alike. -/
theorem agree_reference {tokens : List Token}
    (argued : ∀ rest : List Token, rest.length + 2 ≤ tokens.length →
      arguments last fuel rest = arguments last fuel' rest) :
    reference last (fuel + 1) tokens = reference last (fuel' + 1) tokens := by
  unfold reference
  refine bind_agree rfl fun name rest ran => ?_
  obtain ⟨before, rfl, texts, _⟩ := sound_expect _ _ tokens name rest ran
  obtain ⟨t, rfl, _⟩ := List.map_eq_singleton_iff.mp texts
  cases Java.Primitive.ofKeyword? name.text with
  | some p => rfl
  | none =>
    refine agree_behind (fun rest' shorter => ?_) rfl
    exact bind_agree (argued rest' (by simp; omega)) fun _ _ _ => rfl

/-- Two depths that read the first argument and the others alike read all of them alike. -/
theorem agree_arguments {tokens : List Token}
    (typed : type last fuel tokens = type last fuel' tokens)
    (argued : ∀ rest : List Token, rest.length + 1 ≤ tokens.length →
      arguments last fuel rest = arguments last fuel' rest) :
    arguments last (fuel + 1) tokens = arguments last (fuel' + 1) tokens := by
  unfold arguments
  refine bind_agree typed fun first rest ran => ?_
  have shorter : rest.length ≤ tokens.length := (sound fuel).1.length_le ran
  refine agree_behind (fun rest' shorter' => ?_) rfl
  exact bind_agree (argued rest' (by omega)) fun _ _ _ => rfl

end Levels

/-- A type needs two levels more than three for each token, a reference one and arguments three. -/
theorem agree (fuel : Nat) : ∀ fuel' tokens,
    (3 * tokens.length + 2 ≤ fuel → 3 * tokens.length + 2 ≤ fuel' →
      type last fuel tokens = type last fuel' tokens) ∧
    (3 * tokens.length + 1 ≤ fuel → 3 * tokens.length + 1 ≤ fuel' →
      reference last fuel tokens = reference last fuel' tokens) ∧
    (3 * tokens.length + 3 ≤ fuel → 3 * tokens.length + 3 ≤ fuel' →
      arguments last fuel tokens = arguments last fuel' tokens) := by
  induction fuel with
  | zero => intro fuel' tokens; omega
  | succ fuel ih =>
    intro fuel' tokens
    cases fuel' with
    | zero => omega
    | succ fuel' =>
      refine ⟨fun h h' => ?_, fun h h' => ?_, fun h h' => ?_⟩
      · exact agree_type fun rest shorter => (ih fuel' rest).2.1 (by omega) (by omega)
      · exact agree_reference fun rest shorter => (ih fuel' rest).2.2 (by omega) (by omega)
      · exact agree_arguments ((ih fuel' tokens).1 (by omega) (by omega))
          fun rest shorter => (ih fuel' rest).2.2 (by omega) (by omega)

/-! ## §5. Bounds. -/

/-- One bound and any others. -/
def bounds (last : Position) (fuel n : Nat) : Parser (List TypeSyntax) := do
  let first ← reference last fuel
  let rest ← moreBounds last fuel n
  return first :: rest

/-- What is read as further bounds carries on the bounds in front of it. -/
theorem sound_moreBounds (fuel n : Nat) :
    Sound (moreBounds last fuel n) fun ws ts =>
      ∀ {front t}, IsReference front t → AreBounds (front ++ ws) (t :: ts) := by
  induction n with
  | zero => exact .pure fun h => by simpa using AreBounds.last h
  | succ n ih =>
    unfold moreBounds
    refine (sound_eat "&").bind fun mark ws hws => ?_
    cases mark with
    | false =>
      subst hws
      exact .pure fun h => by simpa using AreBounds.last h
    | true =>
      subst hws
      refine (sound fuel).2.1.bind fun bound ws derived => ?_
      refine ih.bind fun rest ws' more => .pure fun h => ?_
      simpa using AreBounds.more h (more derived)

/-- What is read as bounds derives them. -/
theorem sound_bounds (fuel n : Nat) : Sound (bounds last fuel n) AreBounds :=
  (sound fuel).2.1.bind fun _ _ derived =>
    (sound_moreBounds fuel n).bind fun _ _ more => .pure (by simpa using more derived)

/-- The tokens of bounds are read as these bounds, up to the token that ends the text. -/
theorem bounds_complete {done : Token} (empty : done.text = "") {after : List Token} :
    ∀ {ws : List String} {ts : List TypeSyntax}, AreBounds ws ts →
      ∀ {before : List Token} {fuel n : Nat}, before.map Token.text = ws →
        3 * before.length ≤ fuel → before.length ≤ n →
          bounds last fuel n (before ++ done :: after) = (.ok ts, done :: after)
  | _, _, .last only, before, fuel, n, spelled, enough, enough' => by
    -- One round of the loop is left for the last bound, since it has a token.
    have some : 0 < before.length := by
      have pos := (AreBounds.last only).length_pos
      rwa [← spelled, List.length_map] at pos
    obtain ⟨n, rfl⟩ : ∃ k, n = k + 1 := ⟨n - 1, by omega⟩
    have stops : Stops (done :: after) := stops_cons done (by simp [empty]) after
    have referred : reference last fuel (before ++ done :: after) = (.ok _, done :: after) :=
      reference_complete only spelled stops (by omega)
    have noMark : eat last "&" (done :: after) = (.ok false, done :: after) :=
      eat_of_ne (by rw [empty]; decide) after
    simp [bounds, moreBounds, Step.bind_ok referred, Step.bind_ok noMark]
  | _, _, .more first rest, before, fuel, n, spelled, enough, enough' => by
    obtain ⟨front, behind, rfl, fronts, behinds⟩ := List.map_eq_append_iff.mp spelled
    obtain ⟨mark, back, rfl, same, backs⟩ := List.map_eq_cons_iff.mp behinds
    simp only [List.length_append, List.length_cons] at enough enough'
    obtain ⟨n, rfl⟩ : ∃ k, n = k + 1 := ⟨n - 1, by omega⟩
    have stops : Stops (mark :: (back ++ done :: after)) := stops_cons mark (by simp [same]) _
    have referred : reference last fuel (front ++ mark :: (back ++ done :: after))
        = (.ok _, mark :: (back ++ done :: after)) :=
      reference_complete first fronts stops (by omega)
    have marked : eat last "&" (mark :: (back ++ done :: after)) = (.ok true, _) := eat_of_eq same _
    have others : bounds last fuel n (back ++ done :: after) = (.ok _, done :: after) :=
      bounds_complete empty rest backs (by omega) (by omega)
    have more : moreBounds last fuel (n + 1) (mark :: (back ++ done :: after))
        = (.ok _, done :: after) := (Step.bind_ok marked).trans others
    simp [bounds, Step.bind_ok referred, -bind_pure_comp, Step.bind_ok more]

/-- Depths that are great enough read further bounds alike. -/
theorem agree_moreBounds {fuel fuel' : Nat} (n : Nat) : ∀ {n' : Nat} {tokens : List Token},
    tokens.length < n → tokens.length < n' → 3 * tokens.length + 1 ≤ fuel →
      3 * tokens.length + 1 ≤ fuel' →
        moreBounds last fuel n tokens = moreBounds last fuel' n' tokens := by
  induction n with
  | zero => intro n' tokens fits; omega
  | succ n ih =>
    intro n' tokens fits fits' deep deep'
    obtain ⟨n', rfl⟩ : ∃ k, n' = k + 1 := ⟨n' - 1, by omega⟩
    unfold moreBounds
    refine agree_behind (fun rest shorter => ?_) rfl
    refine bind_agree ((agree fuel fuel' rest).2.1 (by omega) (by omega)) fun bound rest' ran => ?_
    have shorter' : rest'.length ≤ rest.length := (sound fuel).2.1.length_le ran
    exact bind_agree (ih (by omega) (by omega) (by omega) (by omega)) fun _ _ _ => rfl

/-- Depths that are great enough read bounds alike. -/
theorem agree_bounds {fuel fuel' n n' : Nat} {tokens : List Token} (fits : tokens.length ≤ n)
    (fits' : tokens.length ≤ n') (deep : 3 * tokens.length + 1 ≤ fuel)
    (deep' : 3 * tokens.length + 1 ≤ fuel') :
    bounds last fuel n tokens = bounds last fuel' n' tokens := by
  refine bind_agree ((agree fuel fuel' tokens).2.1 deep deep') fun first rest ran => ?_
  obtain ⟨before, rfl, derived⟩ := (sound fuel).2.1 tokens first rest ran
  obtain ⟨name, ws, some, _⟩ := derived.exists_head
  have shorter : before.length = ws.length + 1 := by simpa using congrArg List.length some
  rw [List.length_append] at fits fits' deep deep'
  exact bind_agree (agree_moreBounds n (by omega) (by omega) (by omega) (by omega))
    fun _ _ _ => rfl

/-! ## §6. Whole token lists. -/

/-- A parser up to the end of the text. -/
def upToEnd {α : Type} (last : Position) (p : Parser α) : Parser α := do
  let a ← p
  finish last
  return a

theorem finish_of_empty {done : Token} (h : done.text = "") (after : List Token) :
    finish last (done :: after) = (.ok (), done :: after) := by
  simp [finish, current, Step.bind_apply, h]

/-- A parser that has finished stands in front of the token that ends the text. -/
theorem finish_eq_ok {tokens rest : List Token} (ran : finish last tokens = (.ok (), rest)) :
    ∃ done after, tokens = done :: after ∧ done.text = "" := by
  rcases tokens with _ | ⟨done, after⟩
  · cases ran
  · refine ⟨done, after, rfl, ?_⟩
    by_contra more
    simp [finish, current, Step.bind_apply, more] at ran

/-- A parser up to the end accepts the token lists that spell something. -/
theorem upToEnd_eq_ok_iff {α : Type} {p : Parser α} {derives : List String → α → Prop}
    {tokens : List Token} {a : α} (sound : Sound p derives)
    (complete : ∀ {before done after}, tokens = before ++ done :: after → done.text = "" →
      derives (before.map Token.text) a → p tokens = (.ok a, done :: after)) :
    (upToEnd last p tokens).1 = .ok a ↔ Spelled (derives · a) tokens := by
  constructor
  · intro accepted
    have ran : upToEnd last p tokens = (.ok a, (upToEnd last p tokens).2) := Prod.ext accepted rfl
    obtain ⟨_, between, first, ran⟩ := Step.bind_eq_ok ran
    obtain ⟨⟨⟩, _, finished, ran⟩ := Step.bind_eq_ok ran
    cases ran
    obtain ⟨before, rfl, derived⟩ := sound tokens a between first
    obtain ⟨done, after, rfl, empty⟩ := finish_eq_ok finished
    exact ⟨before, done, after, rfl, empty, derived⟩
  · rintro ⟨before, done, after, eq, empty, derived⟩
    have first := complete eq empty derived
    unfold upToEnd
    rw [Step.bind_ok first, Step.bind_ok (finish_of_empty empty after)]
    rfl

theorem upToEnd_agree {α : Type} {p p' : Parser α} {tokens : List Token}
    (h : p tokens = p' tokens) : upToEnd last p tokens = upToEnd last p' tokens :=
  bind_agree h fun _ _ _ => rfl

end Parser

open ParcelCodec.TypeSyntax.Parser

/-- The type that a token list spells, with a bound on the depth. -/
def ofTokensWithin (fuel : Nat) (tokens : List Token) : Except SyntaxError TypeSyntax :=
  (upToEnd (lastPosition tokens) (type (lastPosition tokens) fuel) tokens).1

/-- The bounds that a token list spells, with a bound on the depth. -/
def boundsWithin (fuel : Nat) (tokens : List Token) : Except SyntaxError (List TypeSyntax) :=
  (upToEnd (lastPosition tokens) (bounds (lastPosition tokens) fuel fuel) tokens).1

/-- Tokens are read as a type exactly if they spell it, up to the one that ends the text. -/
theorem ofTokens_eq_ok_iff (tokens : List Token) (t : TypeSyntax) :
    ofTokens tokens = .ok t ↔ Spelled (IsType · t) tokens := by
  refine upToEnd_eq_ok_iff (sound _).1 fun eq empty derived => ?_
  rw [eq]
  refine type_complete derived rfl (stops_cons _ (by simp [empty]) _) ?_
  simp [enough]
  omega

theorem boundsOfTokens_eq (tokens : List Token) :
    boundsOfTokens tokens = (upToEnd (lastPosition tokens)
      (bounds (lastPosition tokens) (enough tokens) tokens.length) tokens).1 := by
  simp [boundsOfTokens, upToEnd, bounds]

/-- Tokens are read as bounds exactly if they spell them. -/
theorem boundsOfTokens_eq_ok_iff (tokens : List Token) (ts : List TypeSyntax) :
    boundsOfTokens tokens = .ok ts ↔ Spelled (AreBounds · ts) tokens := by
  rw [boundsOfTokens_eq]
  refine upToEnd_eq_ok_iff (sound_bounds _ _) fun eq empty derived => ?_
  rw [eq]
  refine bounds_complete empty derived rfl ?_ ?_
  · simp [enough]
    omega
  · simp

/-- What is read from the tokens of a text is spelled by all of them but the empty one at the end. -/
theorem scan_bind_eq_ok_iff {α : Type} {read : List Token → Except SyntaxError α} {a : α}
    {derives : List String → Prop} (spelled : ∀ tokens, read tokens = .ok a ↔ Spelled derives tokens)
    (text : String) :
    Token.scan text >>= read = .ok a ↔ ∃ before done,
      Token.scan text = .ok (before ++ [done]) ∧ derives (before.map Token.text) := by
  rcases scanned : Token.scan text with e | tokens
  · exact iff_of_false nofun fun ⟨_, _, h, _⟩ => nomatch h
  · obtain ⟨before, done, rfl, empty, filled⟩ := Token.exists_of_scan scanned
    show read (before ++ [done]) = .ok a ↔ _
    rw [spelled]
    constructor
    · rintro ⟨front, done', after, split, empty', derived⟩
      refine ⟨before, done, rfl, ?_⟩
      rcases List.append_eq_append_iff.mp split with ⟨extra, rfl, tail⟩ | ⟨extra, rfl, tail⟩
      · rcases extra with _ | ⟨t, extra⟩
        · simpa using derived
        · simp at tail
      · rcases extra with _ | ⟨t, extra⟩
        · simpa using derived
        · -- An empty token among those that have text.
          obtain ⟨rfl, _⟩ := List.cons_eq_cons.mp tail
          exact absurd empty' (filled done' (by simp))
    · rintro ⟨front, done', same, derived⟩
      obtain ⟨rfl, h⟩ := List.append_inj' (Except.ok.inj same) rfl
      exact ⟨before, done, [], rfl, empty, derived⟩

/-- A text is read as a type exactly if its tokens derive that type. -/
theorem parse_eq_ok_iff (text : String) (t : TypeSyntax) :
    parse text = .ok t ↔ ∃ before done,
      Token.scan text = .ok (before ++ [done]) ∧ IsType (before.map Token.text) t :=
  scan_bind_eq_ok_iff (ofTokens_eq_ok_iff · t) text

/-- A text is read as bounds exactly if its tokens derive these bounds. -/
theorem parseBounds_eq_ok_iff (text : String) (ts : List TypeSyntax) :
    parseBounds text = .ok ts ↔ ∃ before done,
      Token.scan text = .ok (before ++ [done]) ∧ AreBounds (before.map Token.text) ts :=
  scan_bind_eq_ok_iff (boundsOfTokens_eq_ok_iff · ts) text

/-- **The parser of types accepts its grammar and nothing else.**  What it answers derives the
texts of the tokens in front of an empty one, and no other type does; every other token list is an
error, whatever the depth to which it is read. -/
theorem parsed_iff_derived :
    (∀ tokens t, ofTokens tokens = .ok t ↔ Spelled (IsType · t) tokens) ∧
    (∀ tokens t t', Spelled (IsType · t) tokens → Spelled (IsType · t') tokens → t = t') ∧
    (∀ tokens, (∀ t, ¬ Spelled (IsType · t) tokens) → ∃ e, ofTokens tokens = .error e) ∧
    (∀ text ts, parseBounds text = .ok ts ↔ ∃ before done,
      Token.scan text = .ok (before ++ [done]) ∧ AreBounds (before.map Token.text) ts) ∧
    (∀ text, (∀ ts before done, Token.scan text = .ok (before ++ [done]) →
      ¬ AreBounds (before.map Token.text) ts) → ∃ e, parseBounds text = .error e) ∧
    (∀ tokens fuel, enough tokens ≤ fuel →
      ofTokensWithin fuel tokens = ofTokens tokens ∧
      boundsWithin fuel tokens = boundsOfTokens tokens) := by
  refine ⟨ofTokens_eq_ok_iff, fun tokens t t' h h' => ?_, fun tokens none => ?_,
    parseBounds_eq_ok_iff, fun text none => ?_, fun tokens fuel deep => ⟨?_, ?_⟩⟩
  · -- The parser answers once, so two derivations cannot differ.
    have same := (ofTokens_eq_ok_iff tokens t).mpr h
    rw [(ofTokens_eq_ok_iff tokens t').mpr h'] at same
    exact (Except.ok.inj same).symm
  · rcases parsed : ofTokens tokens with e | t
    · exact ⟨e, rfl⟩
    · exact absurd ((ofTokens_eq_ok_iff tokens t).mp parsed) (none t)
  · rcases parsed : parseBounds text with e | ts
    · exact ⟨e, rfl⟩
    · obtain ⟨before, done, scanned, derived⟩ := (parseBounds_eq_ok_iff text ts).mp parsed
      exact absurd derived (none ts before done scanned)
  · -- Three times the tokens are depth enough, so beyond that no answer changes.
    unfold enough at deep
    refine congrArg Prod.fst (upToEnd_agree ((agree fuel _ tokens).1 ?_ ?_))
    · omega
    · exact Nat.le_succ _
  · rw [boundsOfTokens_eq]
    unfold enough at deep
    refine congrArg Prod.fst (upToEnd_agree (agree_bounds ?_ ?_ ?_ ?_))
    · omega
    · omega
    · omega
    · exact Nat.le_add_right _ 2

end ParcelCodec.TypeSyntax
