import ParcelCodec.Proofs.Codec.Bench
import ParcelCodec.Proofs.Companion.Desk
import ParcelCodec.Proofs.Compilation.StaticFields
import ParcelCodec.Proofs.DataClass.Arrangement

/-!
# The adapters of a described class

A class that is described needs exactly the adapters that stand in the codecs of its properties,
each once and behind everything that it depends on.  Its companion has a field for each of them in
the same order, except for those that are used through their own instances; and it makes no
difference whether they are collected beforehand or registered where the procedures come upon them.

All of this rests on one fact: an adapter with its type arguments handles one type, and so it
stands in the codecs as one instance.

Main statement: `adapters_of_described`.
-/

namespace ParcelCodec.DataClass

open Codebook (Makes)

variable {b : Codebook} {o : Options} {d : TypeDecl} {x : Descriptor}

/-! ## §1. Every codec is made. -/

/-- The codecs of a described class are made by the codebook, and a singleton has none. -/
theorem made_of_described (h : Described b o d x) :
    (∀ p ∈ x.properties, Makes b p.codec.type p.codec)
      ∧ (x.singleton = true → x.properties = []) := by
  obtain ⟨-, none⟩ | ⟨many, -, -, made⟩ := h.madeOf
  · rw [none]
    exact ⟨nofun, fun _ => rfl⟩
  · refine ⟨fun p hp => ?_, fun single => ?_⟩
    · obtain ⟨_, -, -, made⟩ := Alongside.exists_left made p hp
      exact made
    · rw [many] at single
      cases single

/-! ## §2. One instance each. -/

/-- The name of an adapter and its type arguments say which instance of it stands in the codecs. -/
theorem oneInstanceEach_of_made (registered : b.registry.Registered)
    (made : ∀ p ∈ x.properties, Makes b p.codec.type p.codec) : OneInstanceEach x := by
  rintro ty ty' ⟨use, deps⟩ ⟨use', deps'⟩ ⟨p, hp, part⟩ ⟨p', hp', part'⟩ key
  have here : Makes b ty (.adapter ty use deps) := (made p hp).part part
  have there : Makes b ty' (.adapter ty' use' deps') := (made p' hp').part part'
  have same : ty = ty' := by
    cases here with
    | adapter rule _ =>
      cases there with
      | adapter rule' _ =>
        obtain ⟨_, handles⟩ := Codebook.exists_handlerAt?_of_classify rule
        obtain ⟨_, handles'⟩ := Codebook.exists_handlerAt?_of_classify rule'
        obtain ⟨name, args⟩ := AdapterUse.key_eq_iff.mp key
        exact registered.eq_of_key handles handles' name args
  subst same
  cases here.unique there
  rfl

/-! ## §3. The fields. -/

/-- A described class needs the adapters that stand in the codecs of its properties, each once and
behind whatever it depends on; its companion, written with everything registered on demand, is the
planned one, and has the fields of those adapters in their order. -/
theorem adapters_of_described (registered : b.registry.Registered) (h : Described b o d x) :
    (∀ it : AdapterInstance, it ∈ x.requiredAdapters
      ↔ ∃ ty, x.Holds (.adapter ty it.use it.deps)) ∧
    (x.requiredAdapters.map (·.use.key)).Nodup ∧
    (∀ front it back, x.requiredAdapters = front ++ it :: back →
      ∀ other, it.DependsOn other → other ∈ front) ∧
    Desk.companion x = Companion.ofDescriptor x ∧
    List.Forall₂ (AdapterField.IsFor (.ofDescriptor x))
      (x.requiredAdapters.filter (!·.use.viaInstance)) (Desk.companion x).adapters := by
  obtain ⟨made, single⟩ := made_of_described h
  have one : OneInstanceEach x := oneInstanceEach_of_made registered made
  have arranged := arranged_requiredAdapters one
  have written := Desk.companion_eq one single
  refine ⟨fun it => mem_requiredAdapters one, nodup_requiredAdapters x, arranged.mem_front,
    written, ?_⟩
  have fields := Statics.fields_foldl arranged (Desk.grows_adaptersOf x)
  have unchanged : (Statics.ofDescriptor x).adapters = _ :=
    Statics.adapters_foldl Statics.adapters_shareComposite _ _
  rw [written]
  show List.Forall₂ _ _ (Statics.ofDescriptor x).adapters
  rw [unchanged]
  exact fields

/-- A class with a tagged list of prices and a tagged price. -/
def pouch : TypeDecl :=
  Compilation.plainClass "Pouch" [("prices", "Tagged<java.util.List<java.util.Currency>>"),
    ("price", "Tagged<java.util.Currency>")]

/-- A program with that class, and with adapters for what is tagged and for a price. -/
def till : Model := { Compilation.tagging with types := pouch :: Compilation.tagging.types }

theorem lists_pouch :
    (describe (Codebook.ofModel till) .default pouch).toOption.map
      (fun x => (x.requiredAdapters.map (·.use.ident),
        (x.requiredAdapters.filter (!·.use.viaInstance)).map (·.use.adapter)))
    = some (["CURRENCY_ADAPTER", "CURRENCY_LIST_TAGGED_ADAPTER", "CURRENCY_TAGGED_ADAPTER"],
      ["app.CurrencyAdapter", "app.TaggedAdapter", "app.TaggedAdapter"]) := by
  decide +kernel

/-- The list of prices is given to its adapter as a shared codec, which the adapter for a price is
needed in; that adapter comes first, and nothing comes twice. -/
theorem adapters_of_described_pouch : (Codebook.ofModel till).registry.Registered ∧
    ∃ x, Described (Codebook.ofModel till) .default pouch x
      ∧ x.requiredAdapters.map (·.use.ident)
        = ["CURRENCY_ADAPTER", "CURRENCY_LIST_TAGGED_ADAPTER", "CURRENCY_TAGGED_ADAPTER"]
      ∧ (Desk.companion x).adapters.map (·.adapter)
        = ["app.CurrencyAdapter", "app.TaggedAdapter", "app.TaggedAdapter"] := by
  have registered := Bench.registered_ofModel till
  have lists := lists_pouch
  rcases described : describe (Codebook.ofModel till) .default pouch with e | x
  · rw [described] at lists
    cases lists
  · rw [described] at lists
    obtain ⟨idents, names⟩ := Prod.mk.inj (Option.some.inj lists)
    have fields := (adapters_of_described registered (.alone described)).2.2.2.2
    refine ⟨registered, x, .alone described, idents, ?_⟩
    rw [← names]
    exact (Alongside.map_eq_iff.mpr (fields.imp fun _ _ isFor => isFor.adapter.symm)).symm

end ParcelCodec.DataClass
