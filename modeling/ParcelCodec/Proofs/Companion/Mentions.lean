import ParcelCodec.Companion.OfDescriptor
import ParcelCodec.Proofs.Companion.Statics

/-!
# What a companion refers to

Procedures refer to other companions, to shared codecs and to adapters by name.  This module
collects these names from a companion's procedures, shared codecs and adapters, at any depth, and
says when each leads to a declaration.

The statements for a codec refer to nothing but the companions of its nested classes and the
adapters that stand in it.  Main statement: `mentions_ofDescriptor`.
-/

namespace ParcelCodec

open DataClass (Descriptor Property)
open Codec (Part)

/-! ## §1. Mentions. -/

/-- Something that is referred to by its name. -/
inductive Mention where
  /-- A companion, by its qualified name. -/
  | companion (name : String)
  /-- A shared codec of the companion at hand. -/
  | codec (name : String)
  /-- A field of the companion at hand that holds an adapter. -/
  | adapter (field : String)
  deriving Repr, DecidableEq

/-- What a reference to an adapter refers to; an adapter's own instance needs no field. -/
def AdapterRef.mentions : AdapterRef → List Mention
  | .field name => [.adapter name]
  | .ownInstance _ => []

/-- What is referred to where an adapter is given something. -/
def DependencyArg.mentions : DependencyArg → List Mention
  | .adapter ref => ref.mentions
  | .codec name => [.codec name]
  | .token _ => []

mutual

/-- What an expression refers to. -/
def Expr.mentions : Expr → List Mention
  | .var _ | .null | .int _ | .read _ _ | .singleton _ | .classLoader _ => []
  | .newContainer _ _ none => []
  | .newContainer _ _ (some capacity) => capacity.mentions
  | .size e | .length e | .newArray _ e | .cast _ e | .enumValueOf _ e | .enumName e
  | .field e _ | .getter e _ _ | .reflect e _ _ _ => e.mentions
  | .index e position | .keyAt e position | .valueAt e position => e.mentions ++ position.mentions
  | .readNested companion => [.companion companion]
  | .adapterRead ref => ref.mentions
  | .codecRead codec => [.codec codec]
  | .construct _ args => Expr.mentionsOfArgs args

/-- What the arguments of a constructor refer to. -/
def Expr.mentionsOfArgs : List (String × Expr) → List Mention
  | [] => []
  | (_, e) :: rest => e.mentions ++ Expr.mentionsOfArgs rest

end

mutual

/-- What a statement refers to. -/
def Stmt.mentions : Stmt → List Mention
  | .declare _ _ e | .assign _ e | .write _ e | .add _ e | .setField _ _ e | .callSetter _ _ _ e
  | .reflectSet _ _ _ e | .ret e => e.mentions
  | .put _ k v | .store _ k v => k.mentions ++ v.mentions
  | .ifPresent body => Stmt.mentionsOfAll body
  | .ifNull e thens otherwise =>
    e.mentions ++ Stmt.mentionsOfAll thens ++ Stmt.mentionsOfAll otherwise
  | .forCount _ e body | .forEach _ _ e body | .forEntries _ _ _ _ e body =>
    e.mentions ++ Stmt.mentionsOfAll body
  | .writeNested companion e => .companion companion :: e.mentions
  | .adapterWrite ref e => ref.mentions ++ e.mentions
  | .codecWrite codec e => .codec codec :: e.mentions

/-- What several statements refer to. -/
def Stmt.mentionsOfAll : List Stmt → List Mention
  | [] => []
  | s :: rest => s.mentions ++ Stmt.mentionsOfAll rest

end

attribute [simp] Expr.mentions Expr.mentionsOfArgs Stmt.mentions Stmt.mentionsOfAll

/-- What a procedure refers to. -/
def Procedure.mentions (p : Procedure) : List Mention := Stmt.mentionsOfAll p.body

/-- What a shared codec refers to. -/
def CodecDecl.mentions (d : CodecDecl) : List Mention := d.read.mentions ++ d.write.mentions

/-- What a companion refers to. -/
def Companion.mentions (c : Companion) : List Mention :=
  c.read.mentions ++ c.write.mentions ++ c.codecs.flatMap CodecDecl.mentions
    ++ c.adapters.flatMap fun f => f.deps.flatMap DependencyArg.mentions

/-- A mention in a companion leads to a declaration: to a companion among given ones, or to a
codec or an adapter of the companion itself. -/
def Companion.Resolves (c : Companion) (companions : List Companion) : Mention → Prop
  | .companion name => ∃ other ∈ companions, other.qualifiedName = name
  | .codec name => ∃ d ∈ c.codecs, d.name = name
  | .adapter field => ∃ f ∈ c.adapters, f.name = field

theorem Stmt.mentionsOfAll_append (stmts rest : List Stmt) :
    Stmt.mentionsOfAll (stmts ++ rest) = Stmt.mentionsOfAll stmts ++ Stmt.mentionsOfAll rest := by
  induction stmts with
  | nil => rfl
  | cons s tail ih => rw [List.cons_append, mentionsOfAll, mentionsOfAll, ih, List.append_assoc]

/-! ## §2. Codecs. -/

/-- The references that a codec leads to satisfy a condition: those to nested companions, and those
to the adapters that stand in it. -/
structure Codec.Refers (s : Statics) (p : Mention → Prop) (c : Codec) : Prop where
  nested : ∀ ty companion, Part (.leaf ty (.nested companion)) c → p (.companion companion)
  adapters : ∀ ty use deps, Part (.adapter ty use deps) c → ∀ x ∈ (s.refTo use).mentions, p x

/-- A part of a codec leads to nothing else. -/
theorem Codec.Refers.part {s : Statics} {p : Mention → Prop} {c part : Codec} (h : c.Refers s p)
    (hp : Part part c) : part.Refers s p :=
  ⟨fun ty companion inside => h.nested ty companion (inside.trans hp),
    fun ty use deps inside => h.adapters ty use deps (inside.trans hp)⟩

/-- What the statements and the value of a draft refer to. -/
def Draft.mentions (d : Draft) : List Mention := Stmt.mentionsOfAll d.stmts ++ d.value.mentions

section Codecs

variable {p : Mention → Prop} {s : Statics} {x : Mention}

/-- A slot refers to what its value refers to. -/
theorem mem_mentions_of_readSlot {c : Codec} {nullable : Bool} {name : String} {d : Draft}
    (h : x ∈ Stmt.mentionsOfAll (Surroundings.readSlot c nullable name d)) : x ∈ d.mentions := by
  unfold Surroundings.readSlot at h
  unfold Draft.mentions
  split at h <;>
    simpa [Stmt.mentionsOfAll, Stmt.mentions, Expr.mentions, Stmt.mentionsOfAll_append] using h

theorem mem_mentions_of_writeSlot {c : Codec} {nullable : Bool} {name : String} {direct : List Stmt}
    (h : x ∈ Stmt.mentionsOfAll (Statics.writeSlot c nullable (.var name) direct)) :
    x ∈ Stmt.mentionsOfAll direct := by
  unfold Statics.writeSlot at h
  split at h
  · simpa [Stmt.mentionsOfAll, Stmt.mentions, Expr.mentions, Statics.present, Statics.absent] using h
  · exact h

/-- A container refers to what its elements refer to. -/
theorem exists_of_readContainer {kind : ContainerKind} {concrete : JavaType} {sized : Bool}
    {scope : NameScope} {element : String → NameScope → List Stmt}
    (h : x ∈ (Surroundings.readContainer kind concrete sized scope element).mentions) :
    ∃ target inner, x ∈ Stmt.mentionsOfAll (element target inner) := by
  unfold Surroundings.readContainer Draft.mentions at h
  cases sized <;> simp [Stmt.mentionsOfAll, Stmt.mentions, Expr.mentions] at h <;>
    exact ⟨_, _, h⟩

theorem exists_of_readArray {ty : JavaType} {e : Codec} {scope : NameScope}
    {element : String → NameScope → List Stmt}
    (h : x ∈ (Surroundings.readArray ty e scope element).mentions) :
    ∃ item inner, x ∈ Stmt.mentionsOfAll (element item inner) := by
  unfold Surroundings.readArray Draft.mentions at h
  by_cases tagged : e.isTagged = true <;>
    simp [tagged, Stmt.mentionsOfAll, Stmt.mentions, Expr.mentions, Stmt.mentionsOfAll_append]
      at h <;> exact ⟨_, _, h⟩

/-- A leaf refers to its companion, if it is nested. -/
theorem mentions_readLeaf (around : Surroundings) (ty : JavaType) (l : Leaf)
    (h : x ∈ (around.readLeaf ty l).mentions) : ∃ companion, l = .nested companion
      ∧ x = .companion companion := by
  cases l <;> simp [Surroundings.readLeaf, Surroundings.readOp, Expr.mentions] at h
  exact ⟨_, rfl, h⟩

theorem mentions_writeLeaf (name : String) (l : Leaf)
    (h : x ∈ (Statics.writeLeaf (.var name) l).mentions) : ∃ companion, l = .nested companion
      ∧ x = .companion companion := by
  cases l <;> simp [Statics.writeLeaf, Stmt.mentions, Expr.mentions] at h
  exact ⟨_, rfl, h⟩

/-- Reading a codec refers to what the codec leads to. -/
theorem mentions_readPresent (around : Surroundings) : ∀ (c : Codec), c.Refers around.statics p →
    ∀ scope, ∀ x ∈ (around.readPresent c scope).mentions, p x
  | .leaf ty l, h, scope, x, hx => by
    obtain ⟨companion, rfl, rfl⟩ := mentions_readLeaf around ty l hx
    exact h.nested ty companion (.refl _)
  | .adapter ty use deps, h, scope, x, hx => h.adapters ty use deps (.refl _) x hx
  | .array ty e, h, scope, x, hx => by
    rw [Surroundings.readPresent] at hx
    obtain ⟨item, inner, hx⟩ := exists_of_readArray hx
    exact mentions_readPresent around e (h.part (.array (.refl e))) inner x
      (mem_mentions_of_readSlot hx)
  | .sequence ty kind box e, h, scope, x, hx => by
    rw [Surroundings.readPresent] at hx
    obtain ⟨target, inner, hx⟩ := exists_of_readContainer hx
    simp only [Stmt.mentionsOfAll_append, Stmt.mentionsOfAll, Stmt.mentions, Expr.mentions,
      List.append_nil] at hx
    exact mentions_readPresent around e (h.part (.sequence (.refl e))) _ x
      (mem_mentions_of_readSlot hx)
  | .map ty box k v, h, scope, x, hx => by
    rw [Surroundings.readPresent] at hx
    obtain ⟨target, inner, hx⟩ := exists_of_readContainer hx
    simp only [Stmt.mentionsOfAll_append, Stmt.mentionsOfAll, Stmt.mentions, Expr.mentions,
      List.append_nil] at hx
    rcases List.mem_append.mp hx with hx | hx
    · exact mentions_readPresent around k (h.part (.key (.refl k))) _ x
        (mem_mentions_of_readSlot hx)
    · exact mentions_readPresent around v (h.part (.value (.refl v))) _ x
        (mem_mentions_of_readSlot hx)
  | .sparseArray ty e, h, scope, x, hx => by
    rw [Surroundings.readPresent] at hx
    obtain ⟨target, inner, hx⟩ := exists_of_readContainer hx
    simp only [Stmt.mentionsOfAll_append, Stmt.mentionsOfAll, Stmt.mentions, Expr.mentions,
      List.append_nil, List.nil_append] at hx
    exact mentions_readPresent around e (h.part (.sparseArray (.refl e))) _ x
      (mem_mentions_of_readSlot hx)

/-- Writing a codec refers to what the codec leads to. -/
theorem mentions_writePresent (s : Statics) : ∀ (c : Codec), c.Refers s p → ∀ name scope,
    ∀ x ∈ Stmt.mentionsOfAll (s.writePresent c (.var name) scope), p x
  | .leaf ty l, h, name, scope, x, hx => by
    rw [Statics.writePresent, Stmt.mentionsOfAll, Stmt.mentionsOfAll, List.append_nil] at hx
    obtain ⟨companion, rfl, rfl⟩ := mentions_writeLeaf name l hx
    exact h.nested ty companion (.refl _)
  | .adapter ty use deps, h, name, scope, x, hx => by
    simp only [Statics.writePresent, Stmt.mentionsOfAll, Stmt.mentions, Expr.mentions,
      List.append_nil] at hx
    exact h.adapters ty use deps (.refl _) x hx
  | .array ty e, h, name, scope, x, hx => by
    simp only [Statics.writePresent, Stmt.mentionsOfAll, Stmt.mentions, Expr.mentions,
      List.append_nil, List.nil_append] at hx
    exact mentions_writePresent s e (h.part (.array (.refl e))) _ _ x
      (mem_mentions_of_writeSlot hx)
  | .sequence ty kind box e, h, name, scope, x, hx => by
    simp only [Statics.writePresent, Stmt.mentionsOfAll, Stmt.mentions, Expr.mentions,
      List.append_nil, List.nil_append] at hx
    exact mentions_writePresent s e (h.part (.sequence (.refl e))) _ _ x
      (mem_mentions_of_writeSlot hx)
  | .map ty box k v, h, name, scope, x, hx => by
    simp only [Statics.writePresent, Stmt.mentionsOfAll, Stmt.mentions, Expr.mentions,
      Stmt.mentionsOfAll_append, List.append_nil, List.nil_append] at hx
    -- What a map mentions, its keys or its values do.
    rcases List.mem_append.mp hx with hx | hx
    · exact mentions_writePresent s k (h.part (.key (.refl k))) _ _ x
        (mem_mentions_of_writeSlot hx)
    · exact mentions_writePresent s v (h.part (.value (.refl v))) _ _ x
        (mem_mentions_of_writeSlot hx)
  | .sparseArray ty e, h, name, scope, x, hx => by
    simp only [Statics.writePresent, Stmt.mentionsOfAll, Stmt.mentions, Expr.mentions,
      List.append_nil, List.nil_append] at hx
    exact mentions_writePresent s e (h.part (.sparseArray (.refl e))) _ _ x
      (mem_mentions_of_writeSlot hx)

end Codecs

/-! ## §3. Companions. -/

namespace Companion

variable {p : Mention → Prop}

/-- What the opening of a procedure refers to: nothing. -/
theorem mentions_opening (s : Statics) (owner : JavaType) (needsLoader : Bool) :
    Stmt.mentionsOfAll (opening s owner needsLoader).1 = []
      ∧ (opening s owner needsLoader).2.1.statics = s := by
  unfold opening
  split <;> exact ⟨rfl, rfl⟩

/-- A property refers to its shared codec or to what its codec leads to. -/
def PropertyRefers (s : Statics) (p : Mention → Prop) (q : Property) : Prop :=
  if q.codec.isComposite then p (.codec (s.codecName q.type)) else q.codec.Refers s p

theorem mentions_readProperties (around : Surroundings) : ∀ (qs : List Property),
    (∀ q ∈ qs, PropertyRefers around.statics p q) → ∀ scope,
      ∀ x ∈ Stmt.mentionsOfAll (readProperties around scope qs).2, p x
  | [], _, _, x, hx => absurd hx List.not_mem_nil
  | q :: rest, h, scope, x, hx => by
    unfold readProperties at hx
    rw [Stmt.mentionsOfAll_append] at hx
    rcases List.mem_append.mp hx with hx | hx
    · have here := h q List.mem_cons_self
      have hx := mem_mentions_of_readSlot hx
      unfold PropertyRefers at here
      split at hx
      · next composite =>
        rw [if_pos composite] at here
        rw [show x = _ from List.mem_singleton.mp hx]
        exact here
      · next single =>
        rw [if_neg single] at here
        exact mentions_readPresent around q.codec here _ x hx
    · exact mentions_readProperties around rest (fun r hr => h r (List.mem_cons_of_mem q hr)) _ x hx

/-- The constructor and the setters refer to local variables only. -/
theorem mentions_building (owner : JavaType) (held : List (Property × String)) :
    Expr.mentionsOfArgs (held.filterMap argument?) = []
      ∧ Stmt.mentionsOfAll (held.filterMap (setter? owner)) = [] := by
  induction held with
  | nil => exact ⟨rfl, rfl⟩
  | cons h rest ih =>
    obtain ⟨args, setters⟩ := ih
    constructor
    · rcases ha : argument? h with _ | ⟨name, e⟩
      · rwa [List.filterMap_cons_none ha]
      · rw [List.filterMap_cons_some ha, Expr.mentionsOfArgs, args, List.append_nil]
        unfold argument? at ha
        split at ha <;> cases ha
        rfl
    · rcases hs : setter? owner h with _ | s
      · rwa [List.filterMap_cons_none hs]
      · rw [List.filterMap_cons_some hs, Stmt.mentionsOfAll, setters, List.append_nil]
        unfold setter? at hs
        dsimp only at hs
        split at hs <;> cases hs <;> rfl

theorem mentions_writeBody (s : Statics) (owner : JavaType) : ∀ (qs : List Property),
    (∀ q ∈ qs, PropertyRefers s p q) → ∀ scope,
      ∀ x ∈ Stmt.mentionsOfAll (writeBody s owner scope qs), p x
  | [], _, _, x, hx => absurd hx List.not_mem_nil
  | q :: rest, h, scope, x, hx => by
    have value : (propertyValue owner q).mentions = [] := by
      unfold propertyValue
      cases q.read <;> rfl
    simp only [writeBody, List.cons_append, Stmt.mentionsOfAll, Stmt.mentions, value,
      List.nil_append, Stmt.mentionsOfAll_append] at hx
    rcases List.mem_append.mp hx with hx | hx
    · have here := h q List.mem_cons_self
      have hx := mem_mentions_of_writeSlot hx
      unfold PropertyRefers at here
      split at hx
      · next composite =>
        rw [if_pos composite] at here
        rw [show x = _ from List.mem_singleton.mp hx]
        exact here
      · next single =>
        rw [if_neg single] at here
        exact mentions_writePresent s q.codec here _ _ x hx
    · exact mentions_writeBody s owner rest (fun r hr => h r (List.mem_cons_of_mem q hr)) _ x hx

/-- A shared codec refers to what its codec leads to. -/
theorem mentions_codecDecl (s : Statics) (owner : JavaType) (shared : SharedCodec)
    (h : shared.codec.Refers s p) : ∀ x ∈ (codecDecl s owner shared).mentions, p x := by
  intro x hx
  unfold CodecDecl.mentions Procedure.mentions codecDecl at hx
  obtain ⟨nothing, statics⟩ := mentions_opening s owner shared.codec.requiresClassLoader
  simp only [Stmt.mentionsOfAll_append, nothing, List.nil_append, Stmt.mentionsOfAll, Stmt.mentions,
    List.append_nil] at hx
  rcases List.mem_append.mp hx with hx | hx
  · exact mentions_readPresent _ shared.codec (statics.symm ▸ h) _ x hx
  · exact mentions_writePresent s shared.codec h _ _ x hx

/-- A companion refers to what its codecs lead to, to its shared codecs, and to what its adapters
are given. -/
theorem mentions_ofDescriptor {d : Descriptor}
    (codecs : ∀ c, d.Holds c → c.Refers (Statics.ofDescriptor d) p)
    (shared : ∀ q ∈ d.properties, q.codec.isComposite = true →
      p (.codec ((Statics.ofDescriptor d).codecName q.type)))
    (args : ∀ f ∈ (Statics.ofDescriptor d).adapters, ∀ a ∈ f.deps, ∀ x ∈ a.mentions, p x) :
    ∀ x ∈ (ofDescriptor d).mentions, p x := by
  have properties : ∀ q ∈ d.properties, PropertyRefers (Statics.ofDescriptor d) p q := by
    intro q hq
    unfold PropertyRefers
    split
    · next composite => exact shared q hq composite
    · exact codecs q.codec ⟨q, hq, .refl _⟩
  intro x hx
  unfold mentions at hx
  -- The two procedures, the shared codecs and the arguments of the adapters, in this order.
  rcases List.mem_append.mp hx with hx | hx
  rcases List.mem_append.mp hx with hx | hx
  rcases List.mem_append.mp hx with hx | hx
  · unfold Procedure.mentions ofDescriptor at hx
    dsimp only at hx
    split at hx
    · exact absurd hx List.not_mem_nil
    · unfold readBody at hx
      obtain ⟨nothing, statics⟩ :=
        mentions_opening (Statics.ofDescriptor d) d.type d.requiresClassLoader
      obtain ⟨arguments, setters⟩ := mentions_building d.type
        (readProperties (opening (Statics.ofDescriptor d) d.type d.requiresClassLoader).2.1
          (opening (Statics.ofDescriptor d) d.type d.requiresClassLoader).2.2 d.properties).1
      simp only [Stmt.mentionsOfAll_append, nothing, Stmt.mentionsOfAll, Stmt.mentions,
        Expr.mentions, arguments, setters, List.append_nil, List.nil_append] at hx
      exact mentions_readProperties _ d.properties (statics.symm ▸ properties) _ x hx
  · unfold Procedure.mentions ofDescriptor at hx
    dsimp only at hx
    split at hx
    · exact absurd hx List.not_mem_nil
    · exact mentions_writeBody _ d.type d.properties properties _ x hx
  · obtain ⟨decl, hd, hx⟩ := List.mem_flatMap.mp hx
    obtain ⟨s, hs, rfl⟩ := List.mem_map.mp hd
    exact mentions_codecDecl _ d.type s
      (codecs s.codec ((Statics.shares_ofDescriptor d).holds s hs)) x hx
  · obtain ⟨f, hf, hx⟩ := List.mem_flatMap.mp hx
    obtain ⟨a, ha, hx⟩ := List.mem_flatMap.mp hx
    exact args f hf a ha x hx

end Companion

end ParcelCodec
