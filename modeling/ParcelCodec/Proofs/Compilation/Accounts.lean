import ParcelCodec.Proofs.Adapter.Rejections
import ParcelCodec.Proofs.Compilation.Rejection
import ParcelCodec.Proofs.DataClass.Findings

/-!
# Every class is accounted for

A compilation gives every data class an account: its companion, or what was found about it.  The
companions are those of the accounts in the order of the classes, and the findings are those about
the rejected adapters and then those of the accounts.  No account is empty: a class without a
companion is one that something is said about.

Main statement: `ofModel_accounts`.
-/

namespace ParcelCodec.Compilation

open DataClass (Descriptor describe Concerns Explains)

/-! ## §1. Accounts. -/

/-- What the rounds settled on for a class: its descriptor, or what was found about it. -/
def outcome (settled : Descriptions × Rejections) (d : TypeDecl) :
    Except (List Diagnostic) Descriptor :=
  match settled.2.lookup d.qualifiedName with
  | some problems => .error problems
  | none =>
    match settled.1.lookup d.qualifiedName with
    | some descriptor => .ok descriptor
    | none => .error []

/-- The companion of a class, or what was found about it.  Options that leave out every field stop
a compilation before it looks at any class. -/
def account (m : Model) (o : Options) (d : TypeDecl) : Except (List Diagnostic) Companion :=
  if o.excludeNonExposed && o.exposeAnnotations.isEmpty then .error []
  else (outcome (settled m o) d).map Companion.ofDescriptor

/-- What an account finds wrong. -/
def findings : Except (List Diagnostic) Companion → List Diagnostic
  | .ok _ => []
  | .error problems => problems

/-- The compilation that gives classes their accounts, after findings that are about none of
them. -/
def arranged (front : List Diagnostic) (account : TypeDecl → Except (List Diagnostic) Companion)
    (classes : List TypeDecl) : Compilation :=
  ⟨classes.filterMap fun d => (account d).toOption,
    front ++ classes.flatMap fun d => findings (account d)⟩

/-- The adapters that a compilation rejects, each with what is found about it. -/
def rejectedAdapters (m : Model) (o : Options) : List (AdapterDecl × List Diagnostic) :=
  Registry.rejections (workshop m o).catalog .empty m.adapters

/-- What a compilation finds before it looks at any class. -/
def front (m : Model) (o : Options) : List Diagnostic :=
  if o.excludeNonExposed && o.exposeAnnotations.isEmpty then [nothingExposed]
  else (rejectedAdapters m o).flatMap (·.2)

/-! ## §2. The accounts of a compilation. -/

/-- The results of classes with names of their own are their accounts: none of them was reported
before. -/
theorem results_eq_arranged (settled : Descriptions × Rejections) :
    ∀ {classes : List TypeDecl} {reported : List String},
      (classes.map TypeDecl.qualifiedName).Nodup →
      (∀ d ∈ classes, d.qualifiedName ∉ reported) →
      results settled.1 settled.2 reported classes
        = arranged [] (fun d => (outcome settled d).map Companion.ofDescriptor) classes
  | [], _, _, _ => rfl
  | d :: rest, reported, distinct, unreported => by
    obtain ⟨new, distinct⟩ := List.nodup_cons.mp distinct
    obtain ⟨first, unreported⟩ := List.forall_mem_cons.mp unreported
    have later : ∀ d' ∈ rest, d'.qualifiedName ∉ d.qualifiedName :: reported := by
      intro d' hd' again
      rcases List.mem_cons.mp again with same | again
      · exact new (same ▸ List.mem_map_of_mem hd')
      · exact unreported d' hd' again
    unfold results arranged outcome
    dsimp only
    rw [List.filterMap_cons, List.flatMap_cons, List.nil_append]
    rcases settled.2.lookup d.qualifiedName with _ | problems
    · rw [results_eq_arranged settled distinct unreported]
      rcases settled.1.lookup d.qualifiedName with _ | descriptor <;> rfl
    · -- Findings are listed at the first class of a name, and this is the only one.
      rw [results_eq_arranged settled distinct later]
      dsimp only
      rw [if_neg (fun again => first (List.contains_iff_mem.mp again))]
      rfl

variable {m : Model} {o : Options} {d : TypeDecl}

/-- A compilation gives the classes of a model their accounts. -/
theorem ofModel_eq_arranged (o : Options) (distinct : (m.types.map TypeDecl.qualifiedName).Nodup) :
    ofModel m o = arranged (front m o) (account m o) m.dataClasses := by
  unfold ofModel front account
  split
  · -- Nothing is said about any class.
    simp [arranged, findings, Except.toOption]
  · have classes : (m.dataClasses.map TypeDecl.qualifiedName).Nodup :=
      distinct.sublist (List.filter_sublist.map _)
    have unreported : ∀ d ∈ m.dataClasses, d.qualifiedName ∉ [] := fun _ _ => List.not_mem_nil
    have settling := results_eq_arranged (settled m o) classes unreported
    have adapters :=
      Registry.findings_registerAll (c := (workshop m o).catalog) .empty m.adapters
    change Compilation.mk (results (settled m o).1 (settled m o).2 [] m.dataClasses).companions
        ((Registry.registerAll (workshop m o).catalog .empty m.adapters).2
          ++ (results (settled m o).1 (settled m o).2 [] m.dataClasses).diagnostics) = _
    rw [settling, adapters]
    rfl

/-- The account of a class holds its descriptor. -/
theorem toOption_outcome :
    (outcome (settled m o) d).toOption = descriptorOf? m o d.qualifiedName := by
  unfold outcome descriptorOf?
  rcases (settled m o).2.lookup d.qualifiedName with _ | problems
  · cases (settled m o).1.lookup d.qualifiedName <;> rfl
  · rfl

/-- An account that holds a companion holds that of a descriptor. -/
theorem descriptorOf?_of_account {k : Companion} (h : account m o d = .ok k) :
    ∃ x, descriptorOf? m o d.qualifiedName = some x ∧ k = .ofDescriptor x := by
  unfold account at h
  split at h
  · cases h
  · rcases found : outcome (settled m o) d with problems | x
    · rw [found] at h
      cases h
    · rw [found] at h
      cases h
      exact ⟨x, by rw [← toOption_outcome, found]; rfl, rfl⟩

/-- The companion of an account is that of its class. -/
theorem names_of_account (distinct : (m.types.map TypeDecl.qualifiedName).Nodup)
    (hd : d ∈ m.dataClasses) {k : Companion} (h : account m o d = .ok k) :
    k.className = d.qualifiedName ∧ k.qualifiedName = (workshop m o).catalog.companionName d := by
  obtain ⟨x, found, rfl⟩ := descriptorOf?_of_account h
  obtain ⟨d', hd', named, describes⟩ := exists_describes found
  obtain rfl := eq_of_qualifiedName distinct hd' hd named
  exact ⟨describes.typeName, describes.qualifiedName⟩

/-- Whatever is rejected is a class, and what was found about it explains that. -/
theorem explains_of_mem_settled {entry : String × List Diagnostic}
    (h : entry ∈ (settled m o).2) :
    ∃ d ∈ m.dataClasses, d.qualifiedName = entry.1 ∧ Explains d entry.2 := by
  obtain ⟨_, -, rounds⟩ := exists_rounds_settled m o
  refine rounds.forall_mem (P := fun entry =>
    ∃ d ∈ m.dataClasses, d.qualifiedName = entry.1 ∧ Explains d entry.2) ?_ ?_ entry h
  · intro entry he
    obtain ⟨d, hd, named, found, against⟩ := Workshop.exists_objections he
    exact ⟨d, hd, named, against, fun x hx => DataClass.concerns_of_objections (found ▸ hx)⟩
  · intro _ _ d hd problems failed
    exact ⟨d, hd, rfl, DataClass.explains_of_describe failed⟩

/-- A class without a descriptor has that explained. -/
theorem explains_of_outcome (distinct : (m.types.map TypeDecl.qualifiedName).Nodup)
    (hd : d ∈ m.dataClasses) {problems : List Diagnostic}
    (h : outcome (settled m o) d = .error problems) : Explains d problems := by
  unfold outcome at h
  split at h
  · next rejected =>
    cases h
    obtain ⟨d', hd', named, explains⟩ := explains_of_mem_settled (Keyed.mem_of_lookup rejected)
    obtain rfl := eq_of_qualifiedName distinct hd' hd named
    exact explains
  · next kept =>
    -- A class that is not rejected is described, so this outcome does not come up.
    obtain ⟨x, found⟩ := exists_descriptorOf? (o := o) hd fun rejected => by
      obtain ⟨entry, he, named⟩ := List.mem_map.mp rejected
      have other := List.lookup_eq_none_iff.mp kept entry he
      simp [named] at other
    unfold descriptorOf? at found
    simp only [kept] at found
    rw [found] at h
    cases h

/-! ## §3. Every class once. -/

/-- A class is accounted for: it has one companion, which is named after it, or it has none and
that is explained. -/
inductive AccountedFor (m : Model) (o : Options) (d : TypeDecl) :
    Except (List Diagnostic) Companion → Prop
  | companion {k : Companion} (mem : k ∈ (ofModel m o).companions)
    (once : ((ofModel m o).companions.map Companion.className).count d.qualifiedName = 1)
    (className : k.className = d.qualifiedName)
    (name : k.qualifiedName = (workshop m o).catalog.companionName d) :
    AccountedFor m o d (.ok k)
  | findings {problems : List Diagnostic}
    (none : d.qualifiedName ∉ (ofModel m o).companions.map Companion.className)
    (explains : Explains d problems) : AccountedFor m o d (.error problems)

/-- Every data class of a model has an account that says what comes of it. -/
theorem accountedFor (exposed : ¬ (o.excludeNonExposed && o.exposeAnnotations.isEmpty) = true)
    (distinct : (m.types.map TypeDecl.qualifiedName).Nodup) (hd : d ∈ m.dataClasses) :
    AccountedFor m o d (account m o d) := by
  have companions := congrArg Compilation.companions (ofModel_eq_arranged o distinct)
  rcases found : account m o d with problems | k
  · have explains : Explains d problems := by
      unfold account at found
      rw [if_neg exposed] at found
      rcases settled : outcome (settled m o) d with problems' | x
      · rw [settled] at found
        cases found
        exact explains_of_outcome distinct hd settled
      · rw [settled] at found
        cases found
    refine .findings (fun there => ?_) explains
    -- A companion of that name would come from the account of this very class.
    obtain ⟨k, hk, named⟩ := List.mem_map.mp there
    rw [companions] at hk
    obtain ⟨d', hd', held⟩ := List.mem_filterMap.mp hk
    rcases other : account m o d' with problems' | k'
    · rw [other] at held
      cases held
    · rw [other] at held
      cases held
      obtain rfl := eq_of_qualifiedName distinct hd hd'
        (named.symm.trans (names_of_account distinct hd' other).1)
      rw [found] at other
      cases other
  · obtain ⟨className, name⟩ := names_of_account distinct hd found
    have mem : k ∈ (ofModel m o).companions := by
      rw [companions]
      exact List.mem_filterMap.mpr ⟨d, hd, by rw [found]; rfl⟩
    refine .companion mem ?_ className name
    exact List.count_eq_one_of_mem (nodup_className distinct)
      (className ▸ List.mem_map_of_mem mem)

/-- Unless the options leave out every field, every data class of a model whose types have names of
their own is accounted for: it has exactly one companion and nothing is found about it, or it has
none and something is found about it, always at the class, at one of its fields or at a parameter
of one of its constructors.  Companions and findings come in the order of the classes, after what
is found about the rejected adapters in the order of the adapters.  And no description fails
without saying why. -/
theorem ofModel_accounts (m : Model) (o : Options)
    (distinct : (m.types.map TypeDecl.qualifiedName).Nodup)
    (exposed : ¬ (o.excludeNonExposed && o.exposeAnnotations.isEmpty) = true) :
    ofModel m o = arranged ((rejectedAdapters m o).flatMap (·.2)) (account m o) m.dataClasses
    ∧ (∀ d ∈ m.dataClasses, AccountedFor m o d (account m o d))
    ∧ ((rejectedAdapters m o).map (·.1)).Sublist m.adapters
    ∧ (∀ g ∈ rejectedAdapters m o, g.2 ≠ [] ∧ ∀ x ∈ g.2, x.element = g.1.qualifiedName)
    ∧ (∀ a ∈ m.adapters, (∃ g ∈ rejectedAdapters m o, g.1 = a)
      ∨ ∃ e ∈ (workshop m o).registry.entries, e.adapter = a.qualifiedName)
    ∧ ∀ (b : Codebook) (d : TypeDecl), describe b o d ≠ .error [] := by
  have before : front m o = (rejectedAdapters m o).flatMap (·.2) := if_neg exposed
  exact ⟨before ▸ ofModel_eq_arranged o distinct, fun _ => accountedFor exposed distinct,
    Registry.sublist_rejections _ _, fun _ => Registry.explained_of_mem_rejections,
    Registry.rejected_or_registered _,
    fun _ _ none => (DataClass.explains_of_describe none).ne_nil rfl⟩

/-- Two classes get their companions, and two are reported: one at its field, and one because of
the other. -/
theorem ofModel_accounts_graph :
    (graph.types.map TypeDecl.qualifiedName).Nodup
    ∧ ofModel graph .default = arranged [] (account graph .default) graph.dataClasses
    ∧ (graph.dataClasses.map fun d => (findings (account graph .default d)).map (·.element))
      = [[], [], ["app.Broken.cause"], ["app.Chain.link"]] := by
  have distinct : (graph.types.map TypeDecl.qualifiedName).Nodup := by decide
  have usable : rejectedAdapters graph .default = [] := by decide +kernel
  obtain ⟨all, -⟩ := ofModel_accounts graph .default distinct (by decide)
  rw [usable] at all
  exact ⟨distinct, all, by decide +kernel⟩

end ParcelCodec.Compilation
