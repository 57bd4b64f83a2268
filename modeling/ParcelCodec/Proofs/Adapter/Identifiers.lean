import ParcelCodec.Proofs.Adapter.Registry
import ParcelCodec.Proofs.NameScope

/-!
# The identifiers of adapters

The constant of an adapter is called like the adapter, in capitals.  Where identifiers like that
are taken, the adapter is numbered by how many there are.  Identifiers are only ever added, so
adapters of one name never get the same number, and a numbered name says which name and which number
it was made of.

But an adapter may be called like a numbered name by itself.  It counts among the identifiers that
are taken, and the number that a later adapter gets can be the one that it has.  Nothing else ever
makes two identifiers equal.

Main statements: `InTurn.nodup_iff` and `nodup_idents_iff`.
-/

namespace ParcelCodec

/-! ## §1. Simple names. -/

/-- A text is split behind a dot, or at it if no other dot follows. -/
theorem Text.splitLastDot_append_dot (before cs : List Char) :
    splitLastDot (before ++ '.' :: cs) = some (match splitLastDot cs with
      | some (middle, after) => (before ++ '.' :: middle, after)
      | none => (before, cs)) := by
  induction before with
  | nil =>
    rw [List.nil_append, splitLastDot]
    rcases splitLastDot cs with _ | ⟨middle, after⟩ <;> rfl
  | cons c rest ih =>
    rw [List.cons_append, splitLastDot, ih]
    rcases splitLastDot cs with _ | ⟨middle, after⟩ <;> rfl

/-- A package does not change the simple name. -/
theorem simpleName_qualified (package name : String) :
    simpleName (qualified package name) = simpleName name := by
  unfold qualified
  split
  · rfl
  · unfold simpleName
    rw [String.toList_append, String.toList_append, List.append_assoc]
    show (match Text.splitLastDot (package.toList ++ '.' :: name.toList) with
      | some (_, after) => String.ofList after
      | none => _) = _
    rw [Text.splitLastDot_append_dot]
    rcases Text.splitLastDot name.toList with _ | ⟨middle, after⟩
    · exact String.ofList_toList
    · rfl

/-- What an adapter is called in capitals, before any number. -/
def AdapterEntry.base (e : AdapterEntry) : String := upperUnderscore (simpleName e.adapter)

namespace Registry

/-! ## §2. Numbered names. -/

/-- A name with a number. -/
def numbered (base : String) (n : Nat) : String := base ++ "_" ++ toString n

/-- The characters of a numbered name. -/
theorem toList_numbered (base : String) (n : Nat) :
    (numbered base n).toList = base.toList ++ '_' :: Nat.toDigits 10 n := by
  unfold numbered
  rw [String.toList_append, String.toList_append, List.append_assoc, Nat.toString_eq_repr,
    Nat.toList_repr]
  rfl

/-- No digit is an underscore. -/
theorem underscore_not_mem_toDigits (n : Nat) : '_' ∉ Nat.toDigits 10 n := by
  intro h
  have digit := Nat.isDigit_of_mem_toDigits (by omega) (by omega) h
  exact absurd digit (by decide)

/-- A numbered name says which name and which number it was made of. -/
theorem numbered_inj {base base' : String} {n n' : Nat} (h : numbered base n = numbered base' n') :
    base = base' ∧ n = n' := by
  have texts := congrArg String.toList h
  rw [toList_numbered, toList_numbered] at texts
  -- Both texts end at their last underscore, since there is none among the digits.
  have split : base.toList = base'.toList ∧ Nat.toDigits 10 n = Nat.toDigits 10 n' := by
    rcases List.append_eq_append_iff.mp texts with ⟨extra, same, rest⟩ | ⟨extra, same, rest⟩ <;>
      rcases extra with _ | ⟨_, extra⟩
    · exact ⟨by rw [same, List.append_nil], (List.cons.inj rest).2⟩
    · refine absurd ?_ (underscore_not_mem_toDigits n)
      rw [(List.cons.inj rest).2]
      exact List.mem_append_right _ List.mem_cons_self
    · exact ⟨by rw [same, List.append_nil], (List.cons.inj rest).2.symm⟩
    · refine absurd ?_ (underscore_not_mem_toDigits n')
      rw [(List.cons.inj rest).2]
      exact List.mem_append_right _ List.mem_cons_self
  refine ⟨String.toList_injective split.1, NameScope.repr_injective ?_⟩
  exact String.toList_injective (by rw [Nat.toList_repr, Nat.toList_repr, split.2])

/-- A numbered name is not its base. -/
theorem numbered_ne (base : String) (n : Nat) : numbered base n ≠ base := by
  intro same
  have lengths := congrArg (List.length ∘ String.toList) same
  simp only [Function.comp, toList_numbered, List.length_append, List.length_cons] at lengths
  omega

/-- A base counts as a variant of itself. -/
theorem isVariantOf_self (base : String) : isVariantOf base base = true := by
  unfold isVariantOf
  rw [beq_self_eq_true, Bool.true_or]

/-- What stands behind the base and an underscore is found again. -/
theorem afterUnderscore?_append (lead rest : List Char) :
    afterUnderscore? lead (lead ++ '_' :: rest) = some rest := by
  induction lead with
  | nil => rfl
  | cons c lead ih => rw [List.cons_append, afterUnderscore?, if_pos rfl, ih]

/-- The digits of a number that a word can hold are taken for one. -/
theorem isWordNumber_toDigits {n : Nat} (small : n < UInt64.size) :
    isWordNumber (Nat.toDigits 10 n) = true := by
  have digits : ∀ c ∈ Nat.toDigits 10 n, c.isDigit = true := fun c hc =>
    Nat.isDigit_of_mem_toDigits (by omega) (by omega) hc
  have value : (Nat.toDigits 10 n).foldl (fun n c => n * 10 + (c.toNat - '0'.toNat)) 0 = n := by
    simp only [Nat.mul_comm _ 10]
    exact Nat.ofDigitChars_ten_toDigits
  unfold isWordNumber
  split
  · next rest same =>
    have sign := digits '+' (same ▸ List.mem_cons_self)
    exact absurd sign (by decide)
  · dsimp only
    rw [value]
    simpa [Nat.toDigits_ne_nil, small] using digits

/-- A name with a number that fits a machine word counts as a form of the name. -/
theorem isVariantOf_numbered (base : String) {n : Nat} (small : n < UInt64.size) :
    isVariantOf base (numbered base n) = true := by
  unfold isVariantOf
  rw [toList_numbered, afterUnderscore?_append, Option.any_some, isWordNumber_toDigits small,
    Bool.or_true]

/-- How many identifiers are a name or a numbered form of it. -/
def taken (es : List AdapterEntry) (base : String) : Nat :=
  es.countP fun e => isVariantOf base e.ident

/-- The next identifier is the name itself if no form of it is taken, and else the name with the
number of those that are. -/
theorem nextIdent_eq (es : List AdapterEntry) (e : AdapterEntry) :
    nextIdent es (simpleName e.adapter)
      = if taken es e.base = 0 then e.base else numbered e.base (taken es e.base) := by
  unfold nextIdent taken
  dsimp only
  split
  · next none => exact (if_pos none).symm
  · next some => exact (if_neg some).symm

/-! ## §3. Entries that were made in turn. -/

/-- Each entry has the identifier that came next when it was made. -/
inductive InTurn : List AdapterEntry → Prop
  | nil : InTurn []
  | snoc {es : List AdapterEntry} {e : AdapterEntry} (h : InTurn es)
    (ident : e.ident = nextIdent es (simpleName e.adapter)) : InTurn (es ++ [e])

/-- The identifier that comes next for an adapter is the name that an earlier one has by itself. -/
def Preempted (before : List AdapterEntry) (e : AdapterEntry) : Prop :=
  ∃ f ∈ before, f.ident = f.base ∧ f.base = numbered e.base (taken before e.base)

namespace InTurn

variable {es : List AdapterEntry} {e f : AdapterEntry}

/-- No more identifiers are taken than entries were made. -/
theorem taken_le (es : List AdapterEntry) (base : String) : taken es base ≤ es.length :=
  List.countP_le_length

/-- An entry more takes its identifier, if that is a variant of the base. -/
theorem taken_snoc (es : List AdapterEntry) (e : AdapterEntry) (base : String) :
    taken (es ++ [e]) base = taken es base + if isVariantOf base e.ident then 1 else 0 := by
  unfold taken
  rw [List.countP_append, List.countP_singleton]

/-- Where an identifier is a form of a name, some form of it is taken. -/
theorem taken_pos (hf : f ∈ es) {base : String} (form : isVariantOf base f.ident = true) :
    0 < taken es base :=
  List.countP_pos_iff.mpr ⟨f, hf, form⟩

/-- An adapter has its name alone, or with a number below that of the forms that are taken. -/
theorem ident_of_mem (h : InTurn es) (few : es.length ≤ UInt64.size) (hf : f ∈ es) :
    f.ident = f.base ∨ ∃ n < taken es f.base, f.ident = numbered f.base n := by
  induction h with
  | nil => cases hf
  | @snoc es e _ ident ih =>
    rw [List.length_append, List.length_singleton] at few
    rcases List.mem_append.mp hf with old | new
    · refine (ih (by omega) old).imp_right fun ⟨n, below, same⟩ => ⟨n, ?_, same⟩
      rw [taken_snoc]
      omega
    · obtain rfl := List.mem_singleton.mp new
      rw [nextIdent_eq] at ident
      split at ident
      · exact .inl ident
      · -- The new identifier is a form of the name itself, so it counts from now on.
        have small : taken es f.base < UInt64.size := Nat.lt_of_le_of_lt (taken_le es _) (by omega)
        refine .inr ⟨taken es f.base, ?_, ident⟩
        rw [taken_snoc, if_pos (show isVariantOf f.base f.ident = true by
          rw [ident]; exact isVariantOf_numbered _ small)]
        exact Nat.lt_succ_self _

/-- The next identifier is taken if an earlier adapter has it as its name, and only then. -/
theorem next_mem_iff (h : InTurn es) (few : es.length < UInt64.size)
    (ident : e.ident = nextIdent es (simpleName e.adapter)) :
    e.ident ∈ es.map (·.ident) ↔ Preempted es e := by
  have small : taken es e.base < UInt64.size := Nat.lt_of_le_of_lt (taken_le es _) few
  rw [nextIdent_eq] at ident
  constructor
  · intro there
    obtain ⟨f, hf, same⟩ := List.mem_map.mp there
    split at ident
    · next none =>
      have form : isVariantOf e.base f.ident = true := by
        rw [same, ident]
        exact isVariantOf_self _
      exact absurd (taken_pos hf form) (by rw [show taken es e.base = 0 from none]; omega)
    · rcases h.ident_of_mem (by omega) hf with alone | ⟨n, below, number⟩
      · exact ⟨f, hf, alone, by rw [← alone, same]; exact ident⟩
      · -- Adapters of one name are numbered by counts that grow.
        obtain ⟨base, rfl⟩ := numbered_inj (number.symm.trans (same.trans ident))
        rw [base] at below
        exact absurd below (Nat.lt_irrefl _)
  · rintro ⟨f, hf, alone, name⟩
    have form : isVariantOf e.base f.ident = true := by
      rw [alone, name]
      exact isVariantOf_numbered _ small
    rw [if_neg (Nat.ne_of_gt (taken_pos hf form))] at ident
    exact List.mem_map.mpr ⟨f, hf, by rw [alone, name]; exact ident.symm⟩

/-- Adapters that were identified in turn have identifiers of their own exactly if none of them was
preempted. -/
theorem nodup_iff (h : InTurn es) (few : es.length ≤ UInt64.size) :
    (es.map (·.ident)).Nodup
      ↔ ∀ before e after, es = before ++ e :: after → ¬ Preempted before e := by
  induction h with
  | nil => exact ⟨fun _ before e after same => by simp at same, fun _ => List.nodup_nil⟩
  | @snoc es e h ident ih =>
    rw [List.length_append, List.length_singleton] at few
    have next := h.next_mem_iff (by omega) ident
    rw [List.map_append, List.map_singleton, ← List.concat_eq_append, List.nodup_concat, next,
      ih (by omega)]
    constructor
    · rintro ⟨free, apart⟩ before f after split
      rcases List.eq_nil_or_concat after with rfl | ⟨after, last, rfl⟩
      · obtain ⟨rfl, same⟩ := List.append_inj' split rfl
        cases same
        exact free
      · rw [List.concat_eq_append, ← List.cons_append, ← List.append_assoc] at split
        exact apart before f after (List.append_inj' split rfl).1
    · intro apart
      refine ⟨apart es e [] rfl, fun before f after split => apart before f (after ++ [e]) ?_⟩
      rw [split, List.append_assoc, List.cons_append]

end InTurn

/-! ## §4. Registries. -/

/-- Adapters are identified in turn, whatever declarations and catalogs they come from. -/
theorem Registered.inTurn {r : Registry} (h : r.Registered) : InTurn r.entries := by
  induction h with
  | empty => exact .nil
  | @register r r' c d _ hr ih =>
    unfold Registry.register at hr
    split at hr
    · cases hr
      exact ih
    · split at hr
      · next e built =>
        cases hr
        refine .snoc ih ?_
        have ident : e.ident = nextIdent r.entries d.simpleName := by
          unfold entry at built
          dsimp only at built
          split at built <;> cases built
          rfl
        rw [ident, adapter_of_entry built]
        exact congrArg (nextIdent r.entries) (simpleName_qualified d.package d.name).symm
      · cases hr

/-- Every declaration makes at most one entry. -/
theorem length_registerAll (c : Catalog) (r : Registry) (ds : List AdapterDecl) :
    (registerAll c r ds).1.entries.length ≤ r.entries.length + ds.length := by
  induction ds generalizing r with
  | nil => exact Nat.le_refl _
  | cons d rest ih =>
    rw [List.length_cons]
    unfold registerAll
    split
    · next r' registered =>
      have one : r'.entries.length ≤ r.entries.length + 1 := by
        unfold register at registered
        split at registered
        · cases registered
          omega
        · split at registered
          · cases registered
            rw [List.length_append, List.length_singleton]
          · cases registered
      have others := ih r'
      omega
    · have others := ih r
      dsimp only
      omega

/-- **Adapters get identifiers of their own unless one of them is preempted.**  However many
declarations there are (as many as a machine can count), two identifiers are equal exactly if an
adapter is numbered and an earlier one is called like that by itself; and that cannot be where no
adapter is called like a numbered form of the name of another one. -/
theorem nodup_idents_iff (c : Catalog) (ds : List AdapterDecl) (few : ds.length ≤ UInt64.size) :
    (((registerAll c empty ds).1.entries.map (·.ident)).Nodup
      ↔ ∀ before e after, (registerAll c empty ds).1.entries = before ++ e :: after →
        ¬ Preempted before e)
    ∧ ((∀ e ∈ (registerAll c empty ds).1.entries, ∀ f ∈ (registerAll c empty ds).1.entries,
        isVariantOf e.base f.base = true → f.base = e.base) →
      ((registerAll c empty ds).1.entries.map (·.ident)).Nodup) := by
  have inTurn := (registered_registerAll .empty ds (c := c)).inTurn
  have count : (registerAll c empty ds).1.entries.length ≤ UInt64.size := by
    have bound := length_registerAll c empty ds
    rw [show empty.entries.length = 0 from rfl] at bound
    omega
  generalize (registerAll c empty ds).1.entries = es at inTurn count ⊢
  have exactly := inTurn.nodup_iff count
  refine ⟨exactly, fun apart => exactly.mpr ?_⟩
  rintro before e after rfl ⟨f, hf, -, name⟩
  have small : taken before e.base < UInt64.size := by
    have bound := InTurn.taken_le before e.base
    rw [List.length_append, List.length_cons] at count
    omega
  have form : isVariantOf e.base f.base = true := by
    rw [name]
    exact isVariantOf_numbered e.base small
  have same := apart e (List.mem_append_right _ List.mem_cons_self) f (List.mem_append_left _ hf)
    form
  exact numbered_ne e.base _ (name.symm.trans same)

/-- A public adapter without type parameters. -/
def simpleAdapter (package name handles : String) : AdapterDecl where
  package := package
  name := name
  kind := .classType
  modifiers := [.isPublic]
  typeParams := []
  handles := handles
  priority := .default
  nullSafe := false
  singleton := false
  constructor := []

/-- Three adapters of one simple name, and another one with a number in its name. -/
def namesakes : List AdapterDecl :=
  [simpleAdapter "shop" "MoneyAdapter" "java.util.Currency",
   simpleAdapter "bank" "MoneyAdapter" "java.util.Locale",
   simpleAdapter "bank" "CoinAdapter_1" "java.util.UUID",
   simpleAdapter "mint" "MoneyAdapter" "java.util.Date"]

/-- Adapters of one simple name are told apart by their numbers. -/
theorem nodup_idents_iff_namesakes :
    namesakes.length ≤ UInt64.size
    ∧ (registerAll ⟨⟨[], []⟩, "Codec"⟩ empty namesakes).1.entries.map (·.ident)
      = ["MONEY_ADAPTER", "MONEY_ADAPTER_1", "COIN_ADAPTER_1", "MONEY_ADAPTER_2"]
    ∧ ((registerAll ⟨⟨[], []⟩, "Codec"⟩ empty namesakes).1.entries.map (·.ident)).Nodup := by
  have few : namesakes.length ≤ UInt64.size := by decide
  have entries : (registerAll ⟨⟨[], []⟩, "Codec"⟩ empty namesakes).1.entries.map (·.ident)
        = ["MONEY_ADAPTER", "MONEY_ADAPTER_1", "COIN_ADAPTER_1", "MONEY_ADAPTER_2"]
      ∧ ∀ e ∈ (registerAll ⟨⟨[], []⟩, "Codec"⟩ empty namesakes).1.entries,
        ∀ f ∈ (registerAll ⟨⟨[], []⟩, "Codec"⟩ empty namesakes).1.entries,
          isVariantOf e.base f.base = true → f.base = e.base := by decide +kernel
  exact ⟨few, entries.1, (nodup_idents_iff _ namesakes few).2 entries.2⟩

/-- Two adapters that are registered without findings get one identifier: the first one is called
like the first numbered form of the second one's name. -/
theorem idents_clash :
    (registerAll ⟨⟨[], []⟩, "Codec"⟩ empty
      [simpleAdapter "shop" "MoneyAdapter_1" "java.util.Currency",
       simpleAdapter "bank" "MoneyAdapter" "java.util.Locale"]).2 = []
    ∧ ¬ ((registerAll ⟨⟨[], []⟩, "Codec"⟩ empty
      [simpleAdapter "shop" "MoneyAdapter_1" "java.util.Currency",
       simpleAdapter "bank" "MoneyAdapter" "java.util.Locale"]).1.entries.map (·.ident)).Nodup := by
  decide +kernel

end Registry

end ParcelCodec
