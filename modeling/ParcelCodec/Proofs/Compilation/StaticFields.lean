import ParcelCodec.Proofs.Companion.StaticFields
import ParcelCodec.Proofs.Compilation.Links

/-!
# Which static fields are there in time

The adapters of a compiled companion are registered in the order of their dependencies, and so each
finds the adapters that it is given: their fields are initialised first.  The shared codecs are
written behind all adapters, whoever asks for them.  An adapter that is given one therefore refers
to a field that is not there yet, which no compiler of the target accepts.

Main statement: `declaredBefore_unless_codec`.
-/

namespace ParcelCodec.Compilation

/-- The source text of a companion has its static fields, which have names of their own, in a fixed
order.  In that order whatever an adapter is given stands in front of it if it is an adapter too,
and behind it if it is a shared codec. -/
theorem declaredBefore_unless_codec (m : Model) (o : Options) {k : Companion}
    (hk : k ∈ (ofModel m o).companions) :
    (k.declarations.map (·.2)).Sublist (Java.companionLines k) ∧ k.staticNames.Nodup
    ∧ ∀ f ∈ k.adapters, ∀ name ∈ f.given,
      (k.DeclaredBefore name f.name ↔ DependencyArg.codec name ∉ f.deps)
      ∧ (DependencyArg.codec name ∈ f.deps → k.DeclaredBefore f.name name) := by
  rw [companions_ofModel] at hk
  obtain ⟨d, hd, rfl⟩ := List.mem_map.mp hk
  have uniform := viaInstance_of_holds hd
  have distinct : (Companion.ofDescriptor d).staticNames.Nodup := by
    rw [Companion.staticNames_ofDescriptor]
    exact (Statics.named_ofDescriptor d).distinct
  refine ⟨Companion.declarations_sublist _, distinct, fun f hf name given => ?_⟩
  have behind : DependencyArg.codec name ∈ f.deps →
      (Companion.ofDescriptor d).DeclaredBefore f.name name :=
    Companion.declaredBefore_of_codec _ uniform hf
  refine ⟨⟨fun before codec => (behind codec).asymm distinct before, fun other => ?_⟩, behind⟩
  have adapter := (AdapterField.mem_given.mp given).resolve_right other
  exact Companion.declaredBefore_of_adapter _ uniform hf adapter

/-- A bag holds a tagged price and tagged items.  The adapter for what is tagged is given an adapter
for the price, and a shared codec for the items. -/
def tagging : Model where
  types := [
    { plainClass "Tagged" [] with
      typeParams := [⟨"T", []⟩], interfaces := [], dataClass := false },
    plainClass "Bag" [("price", "Tagged<java.util.Currency>"),
      ("items", "Tagged<java.util.List<String>>")]]
  adapters := [
    { package := "app", name := "TaggedAdapter", kind := .classType, modifiers := [.isPublic],
      typeParams := [⟨"T", []⟩], handles := "Tagged<T>", priority := .default, nullSafe := false,
      singleton := false, constructor := [⟨"inner", "TypeAdapter<T>"⟩] },
    { package := "app", name := "CurrencyAdapter", kind := .classType, modifiers := [.isPublic],
      typeParams := [], handles := "java.util.Currency", priority := .default, nullSafe := false,
      singleton := false, constructor := [] }]

/-- What the companion of a bag declares, and what its adapters are given. -/
theorem fields_tagging :
    (ofModel tagging .default).diagnostics = [] ∧ ∃ k ∈ (ofModel tagging .default).companions,
      (∃ f ∈ k.adapters, f.name = "CURRENCY_TAGGED_ADAPTER" ∧ "CURRENCY_ADAPTER" ∈ f.given
        ∧ DependencyArg.codec "CURRENCY_ADAPTER" ∉ f.deps)
      ∧ ∃ f ∈ k.adapters, f.name = "STRING_LIST_TAGGED_ADAPTER" ∧ "STRING_LIST" ∈ f.given
        ∧ DependencyArg.codec "STRING_LIST" ∈ f.deps ∧ "STRING_LIST" ∈ k.staticNames
        ∧ ¬ k.DeclaredBefore "STRING_LIST" f.name := by
  decide +kernel

/-- The price is there in time, and the items are not. -/
theorem declaredBefore_unless_codec_tagging :
    ∃ k ∈ (ofModel tagging .default).companions,
      k.DeclaredBefore "CURRENCY_ADAPTER" "CURRENCY_TAGGED_ADAPTER"
      ∧ k.DeclaredBefore "STRING_LIST_TAGGED_ADAPTER" "STRING_LIST" := by
  obtain ⟨-, k, hk, ⟨f, hf, priced, price, adapter⟩, g, hg, listed, items, codec, -, -⟩ :=
    fields_tagging
  obtain ⟨-, -, order⟩ := declaredBefore_unless_codec tagging .default hk
  exact ⟨k, hk, priced ▸ (order f hf _ price).1.mpr adapter, listed ▸ (order g hg _ items).2 codec⟩

/-- A class that is compiled without findings refers to a static field that is not there yet. -/
theorem tagging_refers_forward :
    (ofModel tagging .default).diagnostics = []
    ∧ ∃ k ∈ (ofModel tagging .default).companions, ∃ f ∈ k.adapters, ∃ name ∈ f.given,
      name ∈ k.staticNames ∧ ¬ k.DeclaredBefore name f.name := by
  obtain ⟨nothing, k, hk, -, f, hf, -, items, -, declared, before⟩ := fields_tagging
  exact ⟨nothing, k, hk, f, hf, _, items, declared, before⟩

end ParcelCodec.Compilation
