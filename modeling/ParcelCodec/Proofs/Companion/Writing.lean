import ParcelCodec.Companion.Writing
import ParcelCodec.Proofs.Companion.Reading
import ParcelCodec.Proofs.Machine.Emits
import ParcelCodec.Proofs.Wire.Emission
import ParcelCodec.Proofs.Wire.Slot

/-!
# Statements that write what the format says

The statements that a companion writes a codec's value with emit what is written along the codec,
whatever names they draw: they keep every name that is in use where they stand, among them the one
that holds the value.  What their procedure calls is left open; where it writes the instances of
classes as writers do, the format's bytes for a value are written along the codec.

The induction is on the codec, as for reading.  Main statements: `appends_writePresent` and
`encode_of_encodeWith`.
-/

namespace ParcelCodec

open Locals (Keeps keeps_set)
open Format (Writers encodeWith encodeAll encodeCounted)
open Wire (Emission Fitting)

/-! ## §1. What is written along a codec. -/

namespace Calls

/-- What is written for a leaf. -/
def writeLeaf (calls : Calls) : Leaf → Value → Option (List UInt8)
  | .primitive p, v => (calls.writeOp v p.op).written?
  | .boxed p, v => (calls.writeOp v p.op).written?
  | .string, v => (calls.writeOp v .string).written?
  | .platform op, v => (calls.writeOp v op).written?
  | .primitiveArray p, v => (calls.writeOp v p.arrayOp).written?
  | .sparseBooleanArray, v => (calls.writeOp v .sparseBooleanArray).written?
  | .enum, .enumConstant name => some (Wire.Slot.text name)
  | .enum, _ => none
  | .nested companion, v => (calls.writeNested companion v).written?
  | .parcelable, v => (calls.writeOp v .parcelable).written?
  | .serializable, v => (calls.writeOp v .serializable).written?
  | .tagged, v => (calls.writeOp v .value).written?

/-- What is written for a value of a codec that is not null. -/
def encode (calls : Calls) (refTo : AdapterUse → AdapterRef) : Codec → Value → Option (List UInt8)
  | .leaf _ l, v => calls.writeLeaf l v
  | .array _ e, .array items =>
    encodeCounted (Format.writeSlot e true (calls.encode refTo e)) items
  | .sequence _ kind box e, v => do
    encodeCounted (Format.writeSlot e box.nulls (calls.encode refTo e)) (← Format.elements? kind v)
  | .map _ box k v, .map entries =>
    encodeCounted (Format.writePair (Format.writeSlot k box.nulls (calls.encode refTo k))
      (Format.writeSlot v true (calls.encode refTo v))) entries
  | .sparseArray _ e, .sparseArray entries =>
    encodeCounted (Format.writePair (fun key => some (Wire.Slot.int key))
      (Format.writeSlot e true (calls.encode refTo e))) entries
  | .adapter _ use _, v => (calls.writeAdapter (refTo use) v).written?
  | _, _ => none

end Calls

/-- A leaf is written by an operation or by a call. -/
theorem emits_writeLeaf {calls : Calls} {locals : Locals} {l : Leaf} {e : Expr} {v : Value}
    {bytes : List UInt8} (he : ∀ ch, calls.eval e ⟨locals, ch⟩ = (.ok v, ⟨locals, ch⟩))
    (hv : calls.writeLeaf l v = some bytes) :
    Emits (calls.exec (Statics.writeLeaf e l)) locals bytes
      fun o after => o = none ∧ after = locals := by
  cases l with
  | enum =>
    cases v with
    | enumConstant name =>
      cases hv
      refine emits_exec_write (v := .string name) (fun ch => ?_) rfl
      rw [Calls.eval, Step.bind_ok (he ch)]
      rfl
    | _ => cases hv
  | nested companion => exact emits_exec_writeNested he (Emission.written?_eq_some.mp hv)
  | _ => exact emits_exec_write he (Emission.written?_eq_some.mp hv)

/-! ## §2. Slots. -/

section Slots

variable {calls : Calls} {locals : Locals} {bytes : List UInt8} {v : Value} {name : String}

theorem eval_var_apply (held : locals.lookup name = some v) (ch : Channel) :
    calls.eval (.var name) ⟨locals, ch⟩ = (.ok v, ⟨locals, ch⟩) := by
  rw [Calls.eval]
  exact Run.valueOf_apply held ch

theorem emits_exec_writeInt {e : Expr} {n : Int32}
    (he : ∀ ch, calls.eval e ⟨locals, ch⟩ = (.ok (.int n), ⟨locals, ch⟩)) :
    Emits (calls.exec (.write .int e)) locals (Wire.Slot.int n)
      fun o after => o = none ∧ after = locals :=
  emits_exec_write he rfl

/-- A slot is written behind its marker. -/
theorem appends_writeSlot {c : Codec} {nullable : Bool} {stmts : List Stmt}
    {direct : Value → Option (List UInt8)} {names : List String}
    (held : locals.lookup name = some v)
    (hd : ∀ content, direct v = some content →
      Appends calls stmts locals content (Keeps names locals))
    (hv : Format.writeSlot c nullable direct v = some bytes) :
    Appends calls (Statics.writeSlot c nullable (.var name) stmts) locals bytes
      (Keeps names locals) := by
  unfold Format.writeSlot Format.marked at hv
  unfold Statics.writeSlot
  split at hv
  · next marker =>
    rw [if_pos marker]
    refine Appends.single (emits_ifNull (eval_var_apply held) ?_)
    -- A null is its marker and nothing else.
    split at hv
    · next null =>
      rw [if_pos null]
      cases hv
      refine Appends.single ((emits_exec_writeInt fun _ => rfl).weaken ?_)
      rintro _ after ⟨none, rfl⟩
      exact ⟨none, Keeps.refl names _⟩
    · next value =>
      rw [if_neg value]
      obtain ⟨content, hc, rfl⟩ := Option.map_eq_some_iff.mp hv
      refine Appends.cons (emits_exec_writeInt fun _ => rfl) ?_
      rintro after rfl
      exact hd content hc
  · next bare =>
    rw [if_neg bare]
    exact hd bytes hv

end Slots

/-! ## §3. Containers. -/

section Containers

variable {α : Type} {calls : Calls} {locals : Locals} {v : Value} {name : String}

/-- The bytes of a container are its number of elements and the elements. -/
theorem encodeCounted_eq {encode : α → Option (List UInt8)} {items : List α} {bytes : List UInt8}
    (h : encodeCounted encode items = some bytes) :
    Fitting items.length ∧ ∃ content, encodeAll encode items = some content
      ∧ bytes = Wire.Slot.int (Int32.ofNat items.length) ++ content := by
  unfold encodeCounted at h
  split at h
  · next fits =>
    obtain ⟨content, hc, rfl⟩ := Option.map_eq_some_iff.mp h
    exact ⟨fits, content, hc, by rw [Wire.length_eq_int]⟩
  · cases h

/-- A number of elements that fits its slot is a count. -/
theorem Run.count_ofNat {n : Nat} (fits : Fitting n) :
    Run.count (.int (Int32.ofNat n)) = pure n := by
  have value := Wire.toInt_ofNat_of_fitting fits
  have nonneg : 0 ≤ Int32.ofNat n := by
    rw [Int32.le_iff_toInt_le, value]
    exact Int.natCast_nonneg n
  rw [Run.count_int, if_pos nonneg, value]
  rfl

theorem fitting_of_lt {i n : Nat} (h : i < n) (fits : Fitting n) : Fitting i := by
  unfold Fitting at fits ⊢
  omega

theorem eval_size_apply (held : locals.lookup name = some v) (ch : Channel) :
    calls.eval (.size (.var name)) ⟨locals, ch⟩
      = (.ok (.int (Int32.ofNat v.length)), ⟨locals, ch⟩) := by
  rw [Calls.eval, Step.bind_ok (eval_var_apply held ch)]
  rfl

theorem eval_length_apply (held : locals.lookup name = some v) (ch : Channel) :
    calls.eval (.length (.var name)) ⟨locals, ch⟩
      = (.ok (.int (Int32.ofNat v.length)), ⟨locals, ch⟩) := by
  rw [Calls.eval, Step.bind_ok (eval_var_apply held ch)]
  rfl

/-- A loop over the positions of a container emits what stands at them. -/
theorem emits_forCount {index : String} {count : Expr} {body : List Stmt} {items : List α}
    {encode : α → Option (List UInt8)} {inv : Locals → Prop} {bytes : List UInt8}
    (fits : Fitting items.length)
    (hc : ∀ ch, calls.eval count ⟨locals, ch⟩
      = (.ok (.int (Int32.ofNat items.length)), ⟨locals, ch⟩))
    (start : inv locals)
    (step : ∀ i a, items[i]? = some a → Fitting i → ∀ content before, encode a = some content →
      inv before → Appends calls body (before.set index (.int (Int32.ofNat i))) content inv)
    (h : encodeAll encode items = some bytes) :
    Emits (calls.exec (.forCount index count body)) locals bytes
      fun o after => o = none ∧ inv after := by
  rw [Calls.exec]
  refine Emits.bind_local hc ?_
  rw [Run.count_ofNat fits, pure_bind]
  refine emits_times items ?_ List.drop_zero h start
  intro i a ha content before hb hi
  obtain ⟨small, -⟩ := List.getElem?_eq_some_iff.mp ha
  exact Emits.bind_local (fun ch => Run.assign_apply _ _ _ ch)
    (step i a ha (fitting_of_lt small fits) content before hb hi)

/-- The number of elements stands in front of them. -/
theorem appends_counted {size : Expr} {loop : Stmt} {items : List α}
    {encode : α → Option (List UInt8)} {post : Locals → Prop} {bytes : List UInt8}
    (hs : ∀ ch, calls.eval size ⟨locals, ch⟩
      = (.ok (.int (Int32.ofNat items.length)), ⟨locals, ch⟩))
    (hl : ∀ content, Fitting items.length → encodeAll encode items = some content →
      Emits (calls.exec loop) locals content fun o after => o = none ∧ post after)
    (h : encodeCounted encode items = some bytes) :
    Appends calls [.write .int size, loop] locals bytes post := by
  obtain ⟨fits, content, hc, rfl⟩ := encodeCounted_eq h
  refine Appends.cons (emits_exec_writeInt hs) ?_
  rintro after rfl
  exact Appends.single (hl content fits hc)

end Containers

/-! ## §4. Codecs. -/

section Codecs

variable {calls : Calls} {locals : Locals} {name : String}

variable (calls) in
/-- An element of an array is at the position that a variable holds. -/
theorem eval_index_apply {index : String} {items : List Value} {i : Nat} {a : Value}
    (held : locals.lookup name = some (.array items))
    (position : locals.lookup index = some (.int (Int32.ofNat i))) (fits : Fitting i)
    (ha : items[i]? = some a) (ch : Channel) :
    calls.eval (.index (.var name) (.var index)) ⟨locals, ch⟩ = (.ok a, ⟨locals, ch⟩) := by
  rw [Calls.eval, Step.bind_ok (eval_var_apply position ch), Run.count_ofNat fits, pure_bind,
    Step.bind_ok (eval_var_apply held ch)]
  unfold Calls.itemAt
  simp only [ha]
  rfl

variable (calls) in
/-- An entry of a sparse array is at the position that a variable holds. -/
theorem eval_entry_apply {index : String} {entries : List (Int32 × Value)} {i : Nat}
    {a : Int32 × Value} (held : locals.lookup name = some (.sparseArray entries))
    (position : locals.lookup index = some (.int (Int32.ofNat i))) (fits : Fitting i)
    (ha : entries[i]? = some a) (ch : Channel) :
    calls.eval (.keyAt (.var name) (.var index)) ⟨locals, ch⟩ = (.ok (.int a.1), ⟨locals, ch⟩)
      ∧ calls.eval (.valueAt (.var name) (.var index)) ⟨locals, ch⟩ = (.ok a.2, ⟨locals, ch⟩) := by
  have entry : Calls.entryAt i (.sparseArray entries) = pure a := by
    unfold Calls.entryAt
    simp only [ha]
  constructor
  · rw [Calls.eval, Step.bind_ok (eval_var_apply position ch), Run.count_ofNat fits, pure_bind,
      Step.bind_ok (eval_var_apply held ch), entry]
    rfl
  · rw [Calls.eval, Step.bind_ok (eval_var_apply position ch), Run.count_ofNat fits, pure_bind,
      Step.bind_ok (eval_var_apply held ch), entry]
    rfl

/-- The elements of a container are those that a loop over it runs through. -/
theorem itemsOf_of_elements {kind : Java.SequenceKind} {v : Value} {items : List Value}
    (h : Format.elements? kind v = some items) :
    Calls.itemsOf v = pure items ∧ v.length = items.length := by
  cases kind <;> cases v <;> cases h <;> exact ⟨rfl, rfl⟩

/-- The bytes of a pair are those of its parts. -/
theorem writePair_eq_some {α β : Type} {first : α → Option (List UInt8)}
    {second : β → Option (List UInt8)} {p : α × β} {bytes : List UInt8}
    (h : Format.writePair first second p = some bytes) :
    ∃ head tail, first p.1 = some head ∧ second p.2 = some tail ∧ bytes = head ++ tail := by
  unfold Format.writePair at h
  obtain ⟨head, hh, h⟩ := Option.bind_eq_some_iff.mp h
  obtain ⟨tail, ht, h⟩ := Option.bind_eq_some_iff.mp h
  cases h
  exact ⟨head, tail, hh, ht, rfl⟩

/-- What a companion writes for a value of a codec is what the codec says. -/
theorem appends_writePresent (s : Statics) : ∀ (c : Codec) (scope : NameScope) (name : String)
    (locals : Locals) (v : Value) (bytes : List UInt8), name ∈ scope.taken →
      locals.lookup name = some v → calls.encode s.refTo c v = some bytes →
      Appends calls (s.writePresent c (.var name) scope) locals bytes (Keeps scope.taken locals)
  | .leaf ty l, scope, name, locals, v, bytes, _, held, hv => by
    -- The induction is on the codec. Every case carries the same invariant: the names that the
    -- enclosing code took keep the values they have.
    rw [Statics.writePresent]
    rw [Calls.encode] at hv
    refine Appends.single ((emits_writeLeaf (eval_var_apply held) hv).weaken ?_)
    rintro _ after ⟨none, rfl⟩
    exact ⟨none, Keeps.refl _ _⟩
  | .array ty e, scope, name, locals, v, bytes, there, held, hv => by
    cases v with
    | array items =>
      rw [Calls.encode] at hv
      obtain ⟨index, withIndex, eqIndex, drawsIndex⟩ := scope.exists_allocate "i"
      obtain ⟨item, inner, eqItem, drawsItem⟩ := withIndex.exists_allocate "element"
      simp only [Statics.writePresent, eqIndex, eqItem]
      refine appends_counted (eval_length_apply held) (fun content fits hc => ?_) hv
      refine emits_forCount fits (eval_length_apply held) (Keeps.refl _ _) ?_ hc
      intro i a ha small content before hb kept
      -- The index is a new name, so the array is still at hand when its item is taken.
      have placed := keeps_set drawsIndex.new (.int (Int32.ofNat i)) before
      have atHand := ((placed name there).trans (kept name there)).trans held
      have element := eval_index_apply calls atHand (Locals.lookup_set_self _ _ _) small ha
      refine Appends.cons_local (exec_declare_apply element) ?_
      have stored := keeps_set drawsItem.new a (before.set index (.int (Int32.ofNat i)))
      refine (appends_writeSlot (Locals.lookup_set_self item a _) (fun bytes hd =>
        appends_writePresent s e inner item _ a bytes drawsItem.self_mem
          (Locals.lookup_set_self item a _) hd) hb).weaken fun after keptInside => ?_
      have keptOutside := (stored.mono drawsIndex.subset).trans
        (keptInside.mono fun n hn => drawsItem.subset n (drawsIndex.subset n hn))
      exact (kept.trans placed).trans keptOutside
    | _ => cases hv
  | .sequence ty kind box e, scope, name, locals, v, bytes, there, held, hv => by
    rw [Calls.encode] at hv
    obtain ⟨items, hi, hv⟩ := Option.bind_eq_some_iff.mp hv
    obtain ⟨iterated, many⟩ := itemsOf_of_elements hi
    obtain ⟨item, inner, eqItem, drawsItem⟩ := scope.exists_allocate "element"
    simp only [Statics.writePresent, eqItem]
    refine appends_counted (many ▸ eval_size_apply held) (fun content fits hc => ?_) hv
    rw [Calls.exec]
    refine Emits.bind_local (eval_var_apply held) ?_
    rw [iterated, pure_bind]
    refine emits_each ?_ hc (Keeps.refl _ _)
    intro a ha content before hb kept
    refine Emits.bind_local (fun ch => Run.assign_apply item a before ch) ?_
    have stored := keeps_set drawsItem.new a before
    refine (appends_writeSlot (Locals.lookup_set_self item a before) (fun bytes hd =>
      appends_writePresent s e inner item _ a bytes drawsItem.self_mem
        (Locals.lookup_set_self item a before) hd) hb).weaken fun after keptInside => ?_
    exact (kept.trans stored).trans (keptInside.mono drawsItem.subset)
  | .map ty box k w, scope, name, locals, v, bytes, there, held, hv => by
    cases v with
    | map entries =>
      rw [Calls.encode] at hv
      obtain ⟨key, withKey, eqKey, drawsKey⟩ := scope.exists_allocate "key"
      obtain ⟨item, inner, eqItem, drawsItem⟩ := withKey.exists_allocate "value"
      simp only [Statics.writePresent, eqKey, eqItem]
      refine appends_counted (eval_size_apply held) (fun content fits hc => ?_) hv
      rw [Calls.exec]
      refine Emits.bind_local (eval_var_apply held) ?_
      rw [show Calls.entriesOf (.map entries) = pure entries from rfl, pure_bind]
      refine emits_each ?_ hc (Keeps.refl _ _)
      intro a ha content before hb kept
      obtain ⟨head, tail, hk, ht, rfl⟩ := writePair_eq_some hb
      refine Emits.bind_local (fun ch => Run.assign_apply key a.1 before ch) ?_
      refine Emits.bind_local (fun ch => Run.assign_apply item a.2 _ ch) ?_
      have placed := keeps_set drawsKey.new a.1 before
      have stored := keeps_set drawsItem.new a.2 (before.set key a.1)
      have heldKey := (stored key drawsKey.self_mem).trans (Locals.lookup_set_self key a.1 before)
      have heldItem := Locals.lookup_set_self item a.2 (before.set key a.1)
      refine (appends_writeSlot heldKey (fun bytes hd => appends_writePresent s k inner key _
        a.1 bytes (drawsItem.subset key drawsKey.self_mem) heldKey hd) hk).append ?_
      intro between keptByKey
      -- Writing the key leaves the value's variable alone, which was drawn before.
      have heldItem' := (keptByKey item drawsItem.self_mem).trans heldItem
      refine (appends_writeSlot heldItem' (fun bytes hd => appends_writePresent s w inner
        item _ a.2 bytes drawsItem.self_mem heldItem' hd) ht).weaken fun after keptByItem => ?_
      have keptOutside := (stored.mono drawsKey.subset).trans ((keptByKey.trans keptByItem).mono
        fun n hn => drawsItem.subset n (drawsKey.subset n hn))
      exact (kept.trans placed).trans keptOutside
    | _ => cases hv
  | .sparseArray ty e, scope, name, locals, v, bytes, there, held, hv => by
    cases v with
    | sparseArray entries =>
      rw [Calls.encode] at hv
      obtain ⟨index, withIndex, eqIndex, drawsIndex⟩ := scope.exists_allocate "i"
      obtain ⟨item, inner, eqItem, drawsItem⟩ := withIndex.exists_allocate "element"
      simp only [Statics.writePresent, eqIndex, eqItem]
      refine appends_counted (eval_size_apply held) (fun content fits hc => ?_) hv
      refine emits_forCount fits (eval_size_apply held) (Keeps.refl _ _) ?_ hc
      intro i a ha small content before hb kept
      obtain ⟨head, tail, hk, ht, rfl⟩ := writePair_eq_some hb
      cases hk
      have placed := keeps_set drawsIndex.new (.int (Int32.ofNat i)) before
      have atHand := ((placed name there).trans (kept name there)).trans held
      obtain ⟨keyAt, valueAt⟩ := forall_and.mp
        (eval_entry_apply calls atHand (Locals.lookup_set_self _ _ _) small ha)
      refine Appends.cons (emits_exec_writeInt keyAt) ?_
      rintro _ rfl
      refine Appends.cons_local (exec_declare_apply valueAt) ?_
      have stored := keeps_set drawsItem.new a.2 (before.set index (.int (Int32.ofNat i)))
      refine (appends_writeSlot (Locals.lookup_set_self item a.2 _) (fun bytes hd =>
        appends_writePresent s e inner item _ a.2 bytes drawsItem.self_mem
          (Locals.lookup_set_self item a.2 _) hd) ht).weaken fun after keptInside => ?_
      have keptOutside := (stored.mono drawsIndex.subset).trans
        (keptInside.mono fun n hn => drawsItem.subset n (drawsIndex.subset n hn))
      exact (kept.trans placed).trans keptOutside
    | _ => cases hv
  | .adapter _ use _, scope, name, locals, v, bytes, _, held, hv => by
    rw [Statics.writePresent]
    rw [Calls.encode] at hv
    have written := Emission.written?_eq_some.mp hv
    refine Appends.single ((emits_exec_adapterWrite (eval_var_apply held) written).weaken ?_)
    rintro _ after ⟨none, rfl⟩
    exact ⟨none, Keeps.refl _ _⟩

end Codecs


/-! ## §5. Calls that write as the format does. -/

/-- What a procedure calls writes the instances of classes as writers do. -/
structure Calls.WritesAs (calls : Calls) (writers : Writers) : Prop where
  named : ∀ v bytes, Format.writeNamed writers v = some bytes → calls.writeInstance v = .wrote bytes

/-- A companion writes the instances of the class of a type. -/
def Calls.WritesClass (calls : Calls) (writers : Writers) (ty : JavaType) (companion : String) :
    Prop :=
  ∀ v bytes, writers (Calls.nameOf ty) v = some bytes
    → calls.writeNested companion v = .wrote bytes

namespace Format

variable {α β : Type} {encode encode' : α → Option (List UInt8)} {bytes : List UInt8}

/-- Elements that can be written one by one in another way can be written so all together. -/
theorem encodeAll_mono {items : List α}
    (h : ∀ a ∈ items, ∀ content, encode a = some content → encode' a = some content)
    (hv : encodeAll encode items = some bytes) : encodeAll encode' items = some bytes := by
  induction items generalizing bytes with
  | nil => exact hv
  | cons a rest ih =>
    obtain ⟨head, tail, first, others, rfl⟩ := encodeAll_cons hv
    have others' := ih (fun b hb => h b (List.mem_cons_of_mem a hb)) others
    rw [encodeAll, h a List.mem_cons_self head first, others']
    rfl

theorem encodeCounted_mono {items : List α}
    (h : ∀ a, ∀ content, encode a = some content → encode' a = some content)
    (hv : encodeCounted encode items = some bytes) : encodeCounted encode' items = some bytes := by
  obtain ⟨fits, content, all, rfl⟩ := encodeCounted_eq hv
  rw [encodeCounted, if_pos fits, encodeAll_mono (fun a _ => h a) all, Wire.length_eq_int]
  rfl

theorem writeSlot_mono {c : Codec} {nullable : Bool} {direct direct' : Value → Option (List UInt8)}
    {v : Value} (h : ∀ content, direct v = some content → direct' v = some content)
    (hv : writeSlot c nullable direct v = some bytes) :
    writeSlot c nullable direct' v = some bytes := by
  unfold writeSlot at hv ⊢
  split
  · next marker =>
    rw [if_pos marker] at hv
    split at hv
    · next null => rw [if_pos null, hv]
    · next value =>
      obtain ⟨content, hc, rfl⟩ := Option.map_eq_some_iff.mp hv
      rw [if_neg value, h content hc]
      rfl
  · next bare =>
    rw [if_neg bare] at hv
    exact h bytes hv

theorem writePair_mono {second second' : β → Option (List UInt8)} {p : α × β}
    (hf : ∀ content, encode p.1 = some content → encode' p.1 = some content)
    (hs : ∀ content, second p.2 = some content → second' p.2 = some content)
    (hv : writePair encode second p = some bytes) : writePair encode' second' p = some bytes := by
  obtain ⟨head, tail, first, rest, rfl⟩ := writePair_eq_some hv
  rw [writePair, hf head first, hs tail rest]
  rfl

end Format

section Writers

variable {calls : Calls} {writers : Writers} {v : Value} {bytes : List UInt8}

/-- A tagged value is written as the format says. -/
theorem writeOp_value (h : calls.WritesAs writers)
    (hv : Format.writeTagged writers v = some bytes) :
    calls.writeOp v .value = .wrote bytes := by
  unfold Format.writeTagged at hv
  unfold Calls.writeOp
  have wrote : Wire.Slot.tagged () (fun v => Format.emission (Format.writeNamed writers v)) v
      = .wrote bytes := by
    rw [← Emission.toExcept_eq_ok]
    rcases ht : (Wire.Slot.tagged () (fun v => Format.emission (Format.writeNamed writers v))
      v).toExcept with e | b
    · rw [ht] at hv
      cases hv
    · rw [ht] at hv
      cases hv
      rfl
  refine Wire.Slot.tagged_of_covers ?_ v wrote
  intro w content hw
  change Format.emission (Format.writeNamed writers w) = .wrote content at hw
  rw [Emission.mapError_eq_wrote]
  rcases hn : Format.writeNamed writers w with _ | b
  · rw [hn] at hw
    exact absurd hw (Emission.failed_ne_wrote () content)
  · rw [hn] at hw
    cases congrArg Emission.bytes hw
    exact h.named w _ hn

/-- An operation writes what its layout says. -/
theorem writeOp_of_writeLayout (h : calls.WritesAs writers) (op : Wire.Op)
    (hv : Format.writeLayout writers (.op op) v = some bytes) :
    calls.writeOp v op = .wrote bytes := by
  have scalar : op.bytes? v = some bytes → op.isPolymorphic = false →
      calls.writeOp v op = .wrote bytes := by
    intro content plain
    have wrote : op.write v = .wrote bytes := by
      unfold Wire.Op.write
      split
      · cases plain
      · rw [content]
    have open' : calls.writeOp v op
        = (op.write v).mapError fun _ => .encode (.unwritable v op) := by
      cases op <;> first | rfl | cases plain
    rw [open', wrote]
    rfl
  cases op with
  | parcelable => exact h.named v bytes hv
  | value => exact writeOp_value h hv
  | _ => exact scalar hv rfl

/-- A leaf is written as its layout says. -/
theorem writeLeaf_of_writeLayout (h : calls.WritesAs writers) {ty : JavaType} {l : Leaf}
    (links : (Codec.leaf ty l).Links (calls.WritesClass writers))
    (hv : Format.writeLayout writers (l.layout ty) v = some bytes) :
    calls.writeLeaf l v = some bytes := by
  cases l with
  | enum =>
    cases v with
    | enumConstant name => exact hv
    | _ => cases hv
  | nested companion => exact Emission.written?_eq_some.mpr (links companion rfl v bytes hv)
  | _ => exact Emission.written?_eq_some.mpr (writeOp_of_writeLayout h _ hv)

/-- Where the calls write instances as writers do, the format's bytes for a value are written along
the codec. -/
theorem encode_of_encodeWith (h : calls.WritesAs writers) (refTo : AdapterUse → AdapterRef) :
    ∀ (c : Codec), c.Links (calls.WritesClass writers) → ∀ (v : Value) (bytes : List UInt8),
      encodeWith writers c v = some bytes → calls.encode refTo c v = some bytes
  | .leaf ty l, links, v, bytes, hv => by
    -- Only the leaves ask the calls for anything; all other cases hand on what their parts write.
    rw [encodeWith] at hv
    rw [Calls.encode]
    exact writeLeaf_of_writeLayout h links hv
  | .array ty e, links, v, bytes, hv => by
    cases v with
    | array items =>
      rw [encodeWith] at hv
      rw [Calls.encode]
      have element := encode_of_encodeWith h refTo e links
      exact Format.encodeCounted_mono (fun a _ => Format.writeSlot_mono (element a)) hv
    | _ => cases hv
  | .sequence ty kind box e, links, v, bytes, hv => by
    rw [encodeWith] at hv
    rw [Calls.encode]
    obtain ⟨items, found, hv⟩ := Option.bind_eq_some_iff.mp hv
    have element := encode_of_encodeWith h refTo e links
    exact Option.bind_eq_some_iff.mpr
      ⟨items, found, Format.encodeCounted_mono (fun a _ => Format.writeSlot_mono (element a)) hv⟩
  | .map ty box k w, links, v, bytes, hv => by
    cases v with
    | map entries =>
      rw [encodeWith] at hv
      rw [Calls.encode]
      have key := encode_of_encodeWith h refTo k links.1
      have value := encode_of_encodeWith h refTo w links.2
      exact Format.encodeCounted_mono (fun p _ => Format.writePair_mono
        (fun _ => Format.writeSlot_mono (key p.1)) fun _ => Format.writeSlot_mono (value p.2)) hv
    | _ => cases hv
  | .sparseArray ty e, links, v, bytes, hv => by
    cases v with
    | sparseArray entries =>
      rw [encodeWith] at hv
      rw [Calls.encode]
      have element := encode_of_encodeWith h refTo e links
      exact Format.encodeCounted_mono (fun p _ => Format.writePair_mono (fun _ same => same)
        fun _ => Format.writeSlot_mono (element p.2)) hv
    | _ => cases hv
  | .adapter _ _ _, links, _, _, _ => links.elim

end Writers

end ParcelCodec
