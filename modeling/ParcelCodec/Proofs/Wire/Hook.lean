import ParcelCodec.Wire.Hook

/-!
# Hooks that remember nothing

A hook that remembers nothing and appends what it writes makes no use of what a tagged value is
written and read beside.  So for such hooks the way of hooks that remember and the way of
`Slot.tagged` and `Read.tagged` are one.

Main statements: `Into.tagged_emit` and `Beside.tagged_lift`.
-/

namespace ParcelCodec.Wire

variable {σ ε α β : Type}

/-! ## §1. Writing. -/

namespace Into

theorem emit_wrote (content : List UInt8) (s : List UInt8 × σ) :
    (emit (.wrote content) : Into σ ε Unit) s = (.ok (), (s.1 ++ content, s.2)) := rfl

theorem emit_failed (e : ε) (s : List UInt8 × σ) : emit (.failed e) s = (.error e, s) := by
  simp [emit, Emission.failed]

theorem emit_nil : (emit (.wrote []) : Into σ ε Unit) = pure () := by
  funext s
  simp [emit_wrote]

/-- One emission after another. -/
theorem emit_andThen (x y : Emission ε) :
    (emit (x.andThen y) : Into σ ε Unit) = emit x >>= fun _ => emit y := by
  funext s
  obtain ⟨head, _ | e⟩ := x
  · have first : emit (⟨head, none⟩ : Emission ε) s = (.ok (), (s.1 ++ head, s.2)) := rfl
    rw [Step.bind_ok first]
    simp [emit, Emission.andThen]
  · have first : emit (⟨head, some e⟩ : Emission ε) s = (.error e, (s.1 ++ head, s.2)) := rfl
    rw [Step.bind_error first]
    rfl

/-- A value that holds no others is written as it is without any hook. -/
theorem tagged_of_flat {bad : ε} {hook : Value → Into σ ε Unit} {v : Value}
    (flat : v.holdsOthers = false) :
    tagged bad hook v = emit (Slot.tagged bad (fun _ => .failed bad) v) := by
  cases v with
  | list | map | object | singleton => cases flat
  | _ => rw [tagged] <;> exact nofun

mutual

/-- A hook that remembers nothing and appends what it writes leaves a tagged value as it is
written without a memory. -/
theorem tagged_emit {bad : ε} {hook : Value → Emission ε} : ∀ v : Value,
    (tagged bad (fun o => emit (hook o)) v : Into σ ε Unit) = emit (Slot.tagged bad hook v)
  | .list items => by
    rw [tagged, Slot.tagged, emit_andThen, taggedItems_emit items]
  | .map entries => by
    rw [tagged, Slot.tagged, emit_andThen, taggedEntries_emit entries]
  | .object className fields => by rw [tagged, Slot.tagged, emit_andThen]
  | .singleton className => by rw [tagged, Slot.tagged, emit_andThen]
  | .null | .bool _ | .byte _ | .short _ | .char _ | .int _ | .long _ | .float _ | .double _
  | .string _ | .enumConstant _ | .bigInteger _ | .bigDecimal _ _ | .size _ _ | .sizeF _ _
  | .blob _ | .array _ | .set _ | .sparseArray _ | .sparseBooleanArray _ => by
    simp only [tagged, Slot.tagged]

theorem taggedItems_emit {bad : ε} {hook : Value → Emission ε} : ∀ items : List Value,
    (taggedItems bad (fun o => emit (hook o)) items : Into σ ε Unit)
      = emit (Slot.taggedItems bad hook items)
  | [] => emit_nil.symm
  | v :: rest => by
    rw [taggedItems, Slot.taggedItems, emit_andThen, tagged_emit v, taggedItems_emit rest]

theorem taggedEntries_emit {bad : ε} {hook : Value → Emission ε} :
    ∀ entries : List (Value × Value),
    (taggedEntries bad (fun o => emit (hook o)) entries : Into σ ε Unit)
      = emit (Slot.taggedEntries bad hook entries)
  | [] => emit_nil.symm
  | (k, v) :: rest => by
    rw [taggedEntries, Slot.taggedEntries, emit_andThen, emit_andThen, tagged_emit k,
      tagged_emit v, taggedEntries_emit rest, bind_assoc]

end

end Into

/-! ## §2. Reading. -/

namespace Beside

theorem lift_apply (x : Step Cursor ε α) (c : Cursor) (memory : σ) :
    lift x (c, memory) = ((x c).1, ((x c).2, memory)) := rfl

theorem lift_bind (x : Step Cursor ε α) (f : α → Step Cursor ε β) :
    (lift (x >>= f) : Beside σ ε β) = lift x >>= fun a => lift (f a) := by
  funext ⟨c, memory⟩
  rcases hx : x c with ⟨e | a, c'⟩
  · have lifted : lift x (c, memory) = (.error e, (c', memory)) := by rw [lift_apply, hx]
    rw [Step.bind_error lifted, lift_apply, Step.bind_error hx]
  · have lifted : lift x (c, memory) = (.ok a, (c', memory)) := by rw [lift_apply, hx]
    rw [Step.bind_ok lifted, lift_apply, lift_apply, Step.bind_ok hx]

theorem lift_replicate (x : Step Cursor ε α) (n : Nat) :
    (lift (Step.replicate n x) : Beside σ ε (List α)) = Step.replicate n (lift x) := by
  induction n with
  | zero => rfl
  | succ n ih =>
    rw [Step.replicate, Step.replicate, lift_bind]
    congr 1
    funext a
    rw [lift_bind, ih]
    rfl

theorem counted_lift {bad : ε} (item : Step Cursor ε α) (wrap : List α → Value) :
    (counted bad (lift item) wrap : Beside σ ε Value) = lift (Read.counted bad item wrap) := by
  unfold counted Read.counted
  rw [lift_bind]
  congr 1
  funext n
  cases n with
  | none => rfl
  | some n =>
    rw [lift_bind, lift_replicate]
    rfl

theorem pair_lift (first : Step Cursor ε α) (second : Step Cursor ε β) :
    (pair (lift first) (lift second) : Beside σ ε (α × β)) = lift (Read.pair first second) := by
  unfold pair Read.pair
  rw [lift_bind]
  congr 1
  funext a
  rw [lift_bind]
  rfl

/-- Behind a tag that announces neither a list nor a map nor an instance, it does not matter how
these are read. -/
theorem payload_of_plain {bad : ε} {tag : Int32} (list : tag ≠ Tag.list) (map : tag ≠ Tag.map)
    (instanceOf : tag ≠ Tag.instanceOf) (hook item hook' item' : Step Cursor ε Value) :
    Read.payload bad hook item tag = Read.payload bad hook' item' tag := by
  unfold Read.payload
  rw [if_neg list, if_neg map, if_neg instanceOf, if_neg list, if_neg map, if_neg instanceOf]

theorem payload_lift {bad : ε} (hook item : Step Cursor ε Value) (tag : Int32) :
    (payload bad (lift hook) (lift item) tag : Beside σ ε Value)
      = lift (Read.payload bad hook item tag) := by
  unfold payload
  split
  · next list =>
    subst list
    exact counted_lift item .list
  · next list =>
    split
    · next map =>
      subst map
      rw [pair_lift]
      exact counted_lift (Read.pair item item) .map
    · next map =>
      split
      · next instanceOf =>
        subst instanceOf
        rfl
      · next instanceOf =>
        rw [payload_of_plain list map instanceOf hook item (Step.fail bad) (Step.fail bad)]

theorem taggedWithin_lift {bad : ε} {hook : Step Cursor ε Value} : ∀ depth,
    (taggedWithin bad (lift hook) depth : Beside σ ε Value)
      = lift (Read.taggedWithin bad hook depth)
  | 0 => rfl
  | depth + 1 => by
    rw [taggedWithin, Read.taggedWithin, lift_bind, taggedWithin_lift depth]
    congr 1
    funext tag
    exact payload_lift hook _ tag

/-- A hook that remembers nothing leaves a tagged value as it is read without a memory. -/
theorem tagged_lift {bad : ε} {hook : Step Cursor ε Value} :
    (tagged bad (lift hook) : Beside σ ε Value) = lift (Read.tagged bad hook) := by
  funext ⟨c, memory⟩
  unfold tagged
  rw [taggedWithin_lift]
  rfl

end Beside

end ParcelCodec.Wire
