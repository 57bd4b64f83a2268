import ParcelCodec.Companion.Reading
import ParcelCodec.Proofs.Format.Guard
import ParcelCodec.Proofs.Machine.Mirrors
import ParcelCodec.Proofs.NameScope

/-!
# Statements that read do what the format says

The statements that a companion reads a codec with mirror a reading along the codec, whatever
names they draw and whatever stands in the local variables around them: they keep every name that
is in use where they stand.  What their procedure calls is left open; where it reads the instances
of classes as readers do, the reading along the codec is the decoding of the format.

The induction is on the codec.  Within a container it runs over the elements, and the invariant is
that the container's variable holds what the elements read so far make.  Main statements:
`yields_readPresent` and `decode_eq_decodeWith`.
-/

namespace ParcelCodec

open Locals (Keeps keeps_set)
open Format (Readers guardedCount readCount readInt readElements readRemaining)

/-! ## §1. What is read along a codec. -/

namespace Calls

/-- What is read for a leaf. -/
def readLeaf (calls : Calls) : Leaf → Reading Value
  | .primitive p => calls.readOp p.op
  | .boxed p => calls.readOp p.op
  | .string => calls.readOp .string
  | .platform op => calls.readOp op
  | .primitiveArray p => calls.readOp p.arrayOp
  | .sparseBooleanArray => calls.readOp .sparseBooleanArray
  | .enum => do
    match ← Reading.ofOp .string Wire.Read.string with
    | some name => return .enumConstant name
    | none => return .null
  | .nested companion => calls.readNested companion
  | .parcelable => calls.readOp .parcelable
  | .serializable => calls.readOp .serializable
  | .tagged => calls.readOp .value

/-- What is read for a value of a codec that is not null. -/
def decode (calls : Calls) (refTo : AdapterUse → AdapterRef) : Codec → Reading Value
  | .leaf _ l => calls.readLeaf l
  | .array _ e => do
    return .array (← readElements guardedCount (Format.readSlot e true (calls.decode refTo e)))
  | .sequence _ kind box e => do
    return Format.collect kind
      (← readElements readCount (Format.readSlot e box.nulls (calls.decode refTo e)))
  | .map _ box k v => do
    return .map (Format.mapOf (← readElements readCount
      (Format.readPair (Format.readSlot k box.nulls (calls.decode refTo k))
        (Format.readSlot v true (calls.decode refTo v)))))
  | .sparseArray _ e => do
    return .sparseArray (Format.sparseOf (← readElements readCount
      (Format.readPair readInt (Format.readSlot e true (calls.decode refTo e)))))
  | .adapter _ use _ => calls.readAdapter (refTo use)

end Calls

/-! ### Codecs whose classes can be reached. -/

/-- A codec without adapters, in which a relation holds between the type and the companion of every
nested class. -/
def Codec.Links (p : JavaType → String → Prop) : Codec → Prop
  | .leaf ty l => ∀ companion, l = .nested companion → p ty companion
  | .array _ e | .sequence _ _ _ e | .sparseArray _ e => e.Links p
  | .map _ _ k v => k.Links p ∧ v.Links p
  | .adapter _ _ _ => False

/-- What a procedure calls reads the instances of classes as readers do. -/
structure Calls.ReadsAs (calls : Calls) (readers : Readers) : Prop where
  named : calls.readInstance = Format.readNamed readers

/-- A companion reads the instances of the class of a type. -/
def Calls.ReadsClass (calls : Calls) (readers : Readers) (ty : JavaType) (companion : String) :
    Prop := calls.readNested companion = readers (Calls.nameOf ty)

/-! ## §2. Drafts. -/

/-- A draft mirrors a reading: its statements read something, and its expression makes the value of
that.  The given names are kept. -/
def Yields (calls : Calls) (d : Draft) (names : List String) (locals : Locals)
    (r : Reading Value) : Prop :=
  ∃ (γ : Type) (first : Reading γ) (g : γ → Reading Value) (mid : γ → Locals → Prop),
    r = first >>= g ∧ Does calls d.stmts locals first mid
      ∧ ∀ x between, mid x between →
        Mirrors (calls.eval d.value) between (g x) fun a b after => a = b ∧ Keeps names locals after

namespace Yields

variable {calls : Calls} {d : Draft} {names : List String} {locals : Locals} {r : Reading Value}

/-- A draft that keeps some names keeps any of them. -/
theorem keeping {names' : List String} (h : Yields calls d names' locals r)
    (sub : ∀ n ∈ names, n ∈ names') : Yields calls d names locals r := by
  obtain ⟨γ, first, g, mid, same, stmts, value⟩ := h
  refine ⟨γ, first, g, mid, same, stmts, fun x between hx => ?_⟩
  exact (value x between hx).weaken fun a b after ha => ⟨ha.1, ha.2.mono sub⟩

/-- A draft without statements is its expression. -/
theorem ofExpr {e : Expr}
    (he : Mirrors (calls.eval e) locals r fun a b after => a = b ∧ after = locals) :
    Yields calls ⟨[], e⟩ names locals r := by
  refine ⟨Unit, pure (), fun _ => r, fun _ after => after = locals, rfl, Does.nil rfl, ?_⟩
  rintro _ _ rfl
  refine he.weaken fun a b after ha => ⟨ha.1, ?_⟩
  rw [ha.2]
  exact Keeps.refl names _

/-- A draft whose statements leave the value in a variable. -/
theorem ofVar {stmts : List Stmt} {e : Expr} {name : String}
    (hs : Does calls stmts locals r fun v after =>
      after.lookup name = some v ∧ Keeps names locals after)
    (he : calls.eval e = Run.valueOf name) : Yields calls ⟨stmts, e⟩ names locals r := by
  refine ⟨Value, r, pure, _, (bind_pure r).symm, hs, ?_⟩
  rintro v between ⟨held, kept⟩
  rw [he, ← bind_pure (Run.valueOf name)]
  exact Mirrors.bind_local (fun ch => Run.valueOf_apply held ch) (Mirrors.pure ⟨rfl, kept⟩)

/-- The value of a draft goes where the statement behind it puts it. -/
theorem followedBy {s : Stmt} {post : Option Value → Value → Locals → Prop}
    (h : Yields calls d names locals r)
    (hs : ∀ {between : Locals} {r' : Reading Value},
      (Mirrors (calls.eval d.value) between r' fun a b after =>
        a = b ∧ Keeps names locals after) →
      Mirrors (calls.exec s) between r' post) :
    Mirrors (calls.execAll (d.stmts ++ [s])) locals r post := by
  obtain ⟨γ, first, g, mid, rfl, stmts, value⟩ := h
  rw [Calls.execAll_append, Calls.execAll_singleton]
  refine Mirrors.bind stmts ?_
  rintro _ x between ⟨rfl, hx⟩
  exact hs (value x between hx)

/-- A declaration behind a draft holds its value. -/
theorem declare {name : String} {ty : JavaType} (new : name ∉ names)
    (h : Yields calls d names locals r) :
    Does calls (d.stmts ++ [.declare name ty d.value]) locals r fun v after =>
      after.lookup name = some v ∧ Keeps names locals after := by
  refine h.followedBy fun value => (mirrors_declare value).weaken ?_
  rintro o b _ ⟨rfl, v, before, ⟨rfl, kept⟩, rfl⟩
  exact ⟨rfl, Locals.lookup_set_self name v before, kept.trans (keeps_set new v before)⟩

/-- An assignment behind a draft holds its value. -/
theorem assign {name : String} (new : name ∉ names) (h : Yields calls d names locals r) :
    Does calls (d.stmts ++ [.assign name d.value]) locals r fun v after =>
      after.lookup name = some v ∧ Keeps names locals after := by
  refine h.followedBy fun value => (mirrors_assign value).weaken ?_
  rintro o b _ ⟨rfl, v, before, ⟨rfl, kept⟩, rfl⟩
  exact ⟨rfl, Locals.lookup_set_self name v before, kept.trans (keeps_set new v before)⟩

/-- A procedure that ends with a draft ends with its value. -/
theorem ret (h : Yields calls d names locals r) :
    Mirrors (calls.execAll (d.stmts ++ [.ret d.value])) locals r fun o b _ => o = some b := by
  refine h.followedBy fun value => (mirrors_ret value).weaken ?_
  rintro o b _ ⟨v, rfl, rfl, _⟩
  rfl

end Yields

/-! ## §3. Leaves. -/

section Leaves

variable {calls : Calls} {locals : Locals}

theorem Reading.ofOp_apply {α : Type} (op : Wire.Op) (read : Wire.Read α) (c : Wire.Cursor) :
    Reading.ofOp op read c = match read c with
      | (.ok a, c') => (.ok a, c')
      | (.error _, c') => (.error (.decode (.unreadable op c.index)), c') := by
  unfold Reading.ofOp
  rw [Step.mapError_apply]
  rcases read c with ⟨_ | _, _⟩ <;> rfl

/-- What is done with the answer of an operation may be done outside of it. -/
theorem Reading.ofOp_map {α β : Type} (op : Wire.Op) (f : α → β) (read : Wire.Read α) :
    Reading.ofOp op (do return f (← read)) = do return f (← Reading.ofOp op read) := by
  funext c
  rw [Step.bind_apply, Reading.ofOp_apply, Reading.ofOp_apply, Step.bind_apply]
  rcases read c with ⟨e | a, c'⟩ <;> rfl

/-- A read whose answer is converted mirrors the read. -/
theorem mirrors_read_map {β : Type} (f : β → Value) (r : Reading β) :
    Mirrors (Run.read (do return f (← r))) locals r fun a b after => a = f b ∧ after = locals := by
  intro c
  have whole : Mirrors (Run.read (do return f (← r))) locals _ _ := Mirrors.read _
  have here := whole c
  rw [Step.bind_apply] at here
  rcases hr : r c with ⟨e | b, c'⟩
  · rw [hr] at here
    exact here
  · rw [hr] at here
    obtain ⟨a, after, run, rfl, rfl⟩ := here
    exact ⟨_, _, run, rfl, rfl⟩

/-- A count slot is read into an integer. -/
theorem mirrors_readInt (loader : Option String) :
    Mirrors (calls.eval (.read .int loader)) locals readInt
      fun v n after => v = .int n ∧ after = locals := by
  have slot : calls.eval (.read .int loader) = Run.read (do return Value.int (← readInt)) := by
    rw [Calls.eval]
    show Run.read (Reading.ofOp .int (do return Value.int (← Wire.Read.int))) = _
    rw [Reading.ofOp_map]
    rfl
  rw [slot]
  exact mirrors_read_map Value.int readInt

/-- The name of an enum's constant is read as a text. -/
theorem mirrors_constant (ty : JavaType) :
    Mirrors (calls.eval (.enumValueOf ty (.read .string none))) locals (calls.readLeaf .enum)
      fun a b after => a = b ∧ after = locals := by
  have slot : calls.eval (.read .string none) = Run.read (do
      return ((← Reading.ofOp .string Wire.Read.string).map Value.string).getD .null) := by
    rw [Calls.eval]
    show Run.read (Reading.ofOp .string (do
      return ((← Wire.Read.string).map Value.string).getD .null)) = _
    exact congrArg Run.read (Reading.ofOp_map .string
      (fun s : Option String => (s.map Value.string).getD .null) Wire.Read.string)
  rw [Calls.eval, slot]
  refine (mirrors_read_map (fun s : Option String => (s.map Value.string).getD .null)
    (Reading.ofOp .string Wire.Read.string)).bind ?_
  rintro _ name _ ⟨rfl, rfl⟩
  cases name with
  | none => exact Mirrors.pure ⟨rfl, rfl⟩
  | some name => exact Mirrors.pure ⟨rfl, rfl⟩

/-- A leaf is read by an operation or by a call. -/
theorem mirrors_readLeaf (s : Surroundings) (ty : JavaType) (l : Leaf) :
    Mirrors (calls.eval (s.readLeaf ty l)) locals (calls.readLeaf l)
      fun a b after => a = b ∧ after = locals := by
  cases l with
  | enum => exact mirrors_constant ty
  | parcelable =>
    show Mirrors (calls.eval (.cast ty (s.readOp .parcelable))) locals _ _
    rw [Calls.eval]
    exact Mirrors.read _
  | serializable =>
    show Mirrors (calls.eval (.cast ty (.read .serializable none))) locals _ _
    rw [Calls.eval]
    exact Mirrors.read _
  | _ => exact Mirrors.read _

end Leaves

/-! ## §4. Slots. -/

/-- A slot is read into its variable. -/
theorem does_readSlot {calls : Calls} {c : Codec} {nullable : Bool} {name : String} {d : Draft}
    {names : List String} {r : Reading Value} (new : name ∉ names)
    (hd : ∀ locals, Yields calls d names locals r) (locals : Locals) :
    Does calls (Surroundings.readSlot c nullable name d) locals (Format.readSlot c nullable r)
      fun v after => after.lookup name = some v ∧ Keeps names locals after := by
  unfold Surroundings.readSlot Format.readSlot Format.marked
  split
  · -- The variable holds null until a value is there.
    have start := keeps_set new .null locals
    refine Does.cons_local (fun ch => exec_declare_apply (fun _ => rfl) ch) (Does.single ?_)
    refine mirrors_ifPresent ?_ ⟨Locals.lookup_set_self name .null locals, start⟩
    exact ((hd _).assign new).weaken fun v after ha => ⟨ha.1, start.trans ha.2⟩
  · exact (hd locals).declare new

/-! ## §5. Containers. -/

section Containers

variable {α : Type} {calls : Calls} {locals : Locals}

theorem Run.count_int (n : Int32) : Run.count (.int n)
    = if 0 ≤ n then pure n.toInt.toNat else Step.fail (.decode (.invalidLength (.int n))) := rfl

variable (calls) in
/-- A count is taken from the variable that holds it. -/
theorem count_var_apply {name : String} {n : Int32} (held : locals.lookup name = some (.int n))
    (nonneg : 0 ≤ n) (ch : Channel) :
    (calls.eval (.var name) >>= Run.count) ⟨locals, ch⟩ = (.ok n.toInt.toNat, ⟨locals, ch⟩) := by
  rw [Calls.eval, Step.bind_ok (Run.valueOf_apply held ch), Run.count_int, if_pos nonneg]
  rfl

variable (calls) in
/-- A count that is held by a variable is refused like any other. -/
theorem mirrors_count {name : String} {n : Int32} (held : locals.lookup name = some (.int n)) :
    Mirrors (calls.eval (.var name) >>= Run.count) locals (Format.toCount n)
      fun k k' after => k = k' ∧ k = n.toInt.toNat ∧ 0 ≤ n ∧ after = locals := by
  rw [Calls.eval]
  refine Mirrors.bind_local (Run.valueOf_apply held) ?_
  rw [Run.count_int]
  unfold Format.toCount
  by_cases nonneg : 0 ≤ n
  · rw [if_pos nonneg, if_pos nonneg]
    exact Mirrors.pure ⟨rfl, rfl, nonneg, rfl⟩
  · rw [if_neg nonneg, if_neg nonneg]
    exact Mirrors.fail _

/-- A loop over the elements of a container: the variable of the container holds what the elements
read so far make. -/
theorem mirrors_elements {index size : String} {n : Int32} {body : List Stmt}
    {element : Reading α} (inv : List α → Locals → Prop)
    (held : locals.lookup size = some (.int n)) (start : inv [] locals)
    (step : ∀ done locals, done.length < n.toInt.toNat → inv done locals →
      Does calls body (locals.set index (.int (Int32.ofNat done.length))) element
        fun a after => inv (done ++ [a]) after) :
    Mirrors (calls.exec (.forCount index (.var size) body)) locals
      (Format.toCount n >>= fun k => Step.replicate k element)
      fun o as after => o = none ∧ inv as after := by
  -- A negative count stops both sides before the loop starts.
  by_cases nonneg : 0 ≤ n
  · have count : Format.toCount n = pure n.toInt.toNat := by
      unfold Format.toCount
      rw [if_pos nonneg]
    rw [count, pure_bind]
    exact (mirrors_forCount (count_var_apply calls held nonneg) start step).weaken
      fun o as after h => ⟨h.1, h.2.2⟩
  · have refused : Format.toCount n = Step.fail (.decode (.invalidLength (.int n))) := by
      unfold Format.toCount
      rw [if_neg nonneg]
    rw [Calls.exec, refused, ← bind_assoc]
    have stops := mirrors_count calls held
    rw [refused] at stops
    exact stops.bind fun _ _ _ h => absurd h.2.2.1 nonneg

/-- A container is read element by element. -/
theorem yields_readContainer {kind : ContainerKind} {concrete : JavaType} {sized : Bool}
    {scope : NameScope} {statement : String → NameScope → List Stmt} {element : Reading α}
    {wrap : List α → Value} (empty : Calls.newContainer kind = wrap [])
    (step : ∀ target (inner : NameScope) locals done, target ∉ scope.taken →
      target ∈ inner.taken → (∀ n ∈ scope.taken, n ∈ inner.taken) →
      locals.lookup target = some (wrap done) →
      Does calls (statement target inner) locals element fun a after =>
        after.lookup target = some (wrap (done ++ [a])) ∧ Keeps scope.taken locals after)
    (locals : Locals) :
    Yields calls (Surroundings.readContainer kind concrete sized scope statement) scope.taken locals
      (do return wrap (← readElements readCount element)) := by
  obtain ⟨size, withSize, allocated, drawsSize⟩ := scope.exists_allocate "size"
  obtain ⟨target, withTarget, allocated', drawsTarget⟩ :=
    withSize.exists_allocate (Surroundings.containerName kind)
  obtain ⟨index, inner, allocated'', drawsIndex⟩ := withTarget.exists_allocate "i"
  have new : target ∉ scope.taken := fun h => drawsTarget.new (drawsSize.subset target h)
  have apart : size ≠ target := fun h => drawsTarget.new (h ▸ drawsSize.self_mem)
  have within : ∀ n ∈ scope.taken, n ∈ withTarget.taken := fun n hn =>
    drawsTarget.subset n (drawsSize.subset n hn)
  have reading : (do return wrap (← readElements readCount element) : Reading Value)
      = readInt >>= fun n => (Format.toCount n >>= fun k => Step.replicate k element)
        >>= fun as => pure (wrap as) := by
    unfold readElements readCount
    simp only [bind_assoc]
  unfold Surroundings.readContainer
  simp only [allocated, allocated', allocated'']
  -- First the count is read, then the container is made, then the loop fills it.
  refine Yields.ofVar ?_ rfl
  rw [reading]
  refine Does.cons (mirrors_declare (mirrors_readInt none)) ?_
  rintro n _ ⟨_, before, ⟨rfl, unchanged⟩, rfl⟩
  rw [unchanged]
  have keptSize := keeps_set drawsSize.new (.int n) locals
  refine Does.cons_local (fun ch => exec_declare_apply (fun _ => rfl) ch) ?_
  have keptTarget := keptSize.trans (keeps_set new (Calls.newContainer kind) _)
  refine Does.cons (mirrors_elements
    (fun as after => after.lookup target = some (wrap as) ∧ Keeps scope.taken locals after)
    ?_ ⟨?_, keptTarget⟩ ?_) fun as after h => Does.nil h
  · rw [Locals.lookup_set_of_ne apart, Locals.lookup_set_self]
  · rw [Locals.lookup_set_self, empty]
  · rintro done before _ ⟨held, kept⟩
    have position := keeps_set drawsIndex.new (.int (Int32.ofNat done.length)) before
    have held' := (position target drawsTarget.self_mem).trans held
    refine (step target inner _ done new (drawsIndex.subset target drawsTarget.self_mem)
      (fun n hn => drawsIndex.subset n (within n hn)) held').weaken fun a after h => ⟨h.1, ?_⟩
    exact (kept.trans (position.mono within)).trans h.2

/-- A position that is held by a variable. -/
theorem count_index {n : Int32} {i : Nat} (h : i < n.toInt.toNat) :
    (Int32.ofNat i).toInt.toNat = i ∧ 0 ≤ Int32.ofNat i := by
  have bound := n.toInt_lt
  have small : Wire.Fitting i := by
    unfold Wire.Fitting
    omega
  have value := Wire.toInt_ofNat_of_fitting small
  refine ⟨by rw [value]; rfl, ?_⟩
  rw [Int32.le_iff_toInt_le, value]
  exact Int.natCast_nonneg i

theorem mirrors_remaining : Mirrors Run.remaining? locals readRemaining
    fun o left after => o = some left ∧ after = locals :=
  fun _ => ⟨_, _, rfl, rfl, rfl⟩

/-- An array of a length that is not refused starts with nulls. -/
theorem mirrors_newArray {ty : JavaType} {name : String} {n : Int32}
    (held : locals.lookup name = some (.int n)) :
    Mirrors (calls.eval (.newArray ty (.var name))) locals (Format.guardCount n)
      fun v k after => v = .array (List.replicate k .null) ∧ k = n.toInt.toNat ∧ 0 ≤ n
        ∧ after = locals := by
  rw [Calls.eval, ← bind_assoc]
  refine (mirrors_count calls held).bind ?_
  rintro k _ after ⟨rfl, hk, nonneg, same⟩
  refine mirrors_remaining.bind ?_
  rintro _ left _ ⟨rfl, rfl⟩
  by_cases refused : left / 4 < k
  · simp only [if_pos refused]
    exact Mirrors.fail _
  · simp only [if_neg refused]
    exact Mirrors.pure ⟨rfl, hk, nonneg, same⟩

/-- Storing the next element of an array that is filled up to there. -/
theorem withElement_next {done : List Value} {a : Value} {k : Nat} (h : done.length < k) :
    Calls.withElement done.length a (.array (done ++ List.replicate (k - done.length) .null))
      = .ok (.array ((done ++ [a]) ++ List.replicate (k - (done ++ [a]).length) .null)) := by
  obtain ⟨m, hm⟩ : ∃ m, k - done.length = m + 1 := ⟨k - done.length - 1, by omega⟩
  have rest : k - (done ++ [a]).length = m := by
    rw [List.length_append, List.length_singleton]
    omega
  have inside : done.length < (done ++ List.replicate (m + 1) Value.null).length := by simp
  rw [hm, rest]
  show (if _ < _ then Except.ok _ else _) = _
  rw [if_pos inside]
  simp [List.replicate_succ]

theorem exec_store_apply {array index item : String} {n : Int32} {i : Nat} {v w w' : Value}
    (position : locals.lookup index = some (.int (Int32.ofNat i))) (small : i < n.toInt.toNat)
    (value : locals.lookup item = some v) (held : locals.lookup array = some w)
    (stored : Calls.withElement i v w = .ok w') (ch : Channel) :
    calls.exec (.store array (.var index) (.var item)) ⟨locals, ch⟩
      = (.ok none, ⟨locals.set array w', ch⟩) := by
  obtain ⟨back, nonneg⟩ := count_index small
  have count : Run.count (.int (Int32.ofNat i)) = pure i := by
    rw [Run.count_int, if_pos nonneg, back]
  rw [Calls.exec, Calls.eval, Calls.eval, Step.bind_ok (Run.valueOf_apply position ch), count,
    pure_bind, Step.bind_ok (Run.valueOf_apply value ch),
    Step.bind_ok (Run.update_apply held stored ch)]
  rfl

/-- An element goes to its position in an array that is filled up to there. -/
theorem does_store {array index item : String} {names outer : List String} {n : Int32} {k : Nat}
    {stmts : List Stmt} {element : Reading Value} {done : List Value} (hk : k = n.toInt.toNat)
    (few : done.length < k) (position : locals.lookup index = some (.int (Int32.ofNat done.length)))
    (held : locals.lookup array
      = some (.array (done ++ List.replicate (k - done.length) .null)))
    (hindex : index ∈ names) (harray : array ∈ names) (sub : ∀ m ∈ outer, m ∈ names)
    (new : array ∉ outer)
    (slot : Does calls stmts locals element fun v after =>
      after.lookup item = some v ∧ Keeps names locals after) :
    Does calls (stmts ++ [.store array (.var index) (.var item)]) locals element fun a after =>
      after.lookup array
          = some (.array ((done ++ [a]) ++ List.replicate (k - (done ++ [a]).length) .null))
        ∧ Keeps outer locals after := by
  rw [← bind_pure element]
  refine slot.append ?_
  rintro a after ⟨heldItem, kept⟩
  have position' := (kept index hindex).trans position
  have held' := (kept array harray).trans held
  refine Does.cons_local (exec_store_apply position' (hk ▸ few) heldItem held'
    (withElement_next few)) (Does.nil ⟨Locals.lookup_set_self _ _ _, ?_⟩)
  exact (kept.mono sub).trans (keeps_set new _ after)

/-- An array is read element by element, unless it is refused. -/
theorem yields_readArray {ty : JavaType} {e : Codec} {scope : NameScope}
    {statement : String → NameScope → List Stmt} {element : Reading Value}
    (slot : ∀ item (names : List String) (inner : NameScope) locals, item ∉ names →
      (∀ n ∈ names, n ∈ inner.taken) →
      Does calls (statement item inner) locals element fun v after =>
        after.lookup item = some v ∧ Keeps names locals after)
    (locals : Locals) :
    Yields calls (Surroundings.readArray ty e scope statement) scope.taken locals
      (do return .array (← readElements guardedCount element)) := by
  obtain ⟨length, withLength, eqLength, drawsLength⟩ := scope.exists_allocate "length"
  obtain ⟨array, withArray, eqArray, drawsArray⟩ := withLength.exists_allocate "array"
  obtain ⟨index, withIndex, eqIndex, drawsIndex⟩ := withArray.exists_allocate "i"
  obtain ⟨item, inner, eqItem, drawsItem⟩ := withIndex.exists_allocate "element"
  have new : array ∉ scope.taken := fun h => drawsArray.new (drawsLength.subset array h)
  have apart : length ≠ array := fun h => drawsArray.new (h ▸ drawsLength.self_mem)
  have within : ∀ n ∈ scope.taken, n ∈ withIndex.taken := fun n hn =>
    drawsIndex.subset n (drawsArray.subset n (drawsLength.subset n hn))
  have reading : (do return .array (← readElements guardedCount element) : Reading Value)
      = readInt >>= fun n => Format.guardCount n >>= fun k => Step.replicate k element
        >>= fun as => pure (.array as) := by
    unfold readElements guardedCount
    simp only [bind_assoc]
  unfold Surroundings.readArray
  simp only [eqLength, eqArray, eqIndex, eqItem]
  refine Yields.ofVar ?_ (by split <;> rfl)
  rw [reading]
  refine Does.cons (mirrors_declare (mirrors_readInt none)) ?_
  rintro n _ ⟨_, before, ⟨rfl, unchanged⟩, rfl⟩
  rw [unchanged]
  have keptLength := keeps_set drawsLength.new (.int n) locals
  refine Does.cons (mirrors_declare (mirrors_newArray (Locals.lookup_set_self _ _ _))) ?_
  rintro k _ ⟨v, between, ⟨rfl, hk, nonneg, unchanged⟩, rfl⟩
  rw [unchanged]
  have keptArray := keptLength.trans (keeps_set new (.array (List.replicate k .null)) _)
  -- The array of nulls gets a name of its own, so that the loop can speak of it.
  obtain ⟨filled, hfilled⟩ : ∃ L, L = (locals.set length (.int n)).set array
    (.array (List.replicate k .null)) := ⟨_, rfl⟩
  have held : filled.lookup length = some (.int n) := by
    rw [hfilled, Locals.lookup_set_of_ne apart, Locals.lookup_set_self]
  have start : filled.lookup array = some (.array ([] ++ List.replicate (k - 0) .null)) := by
    rw [hfilled, Locals.lookup_set_self]
    rfl
  rw [← hfilled] at keptArray ⊢
  have count := count_var_apply calls held nonneg
  rw [← hk] at count
  -- The elements that are not read yet are still null.
  have loop : Mirrors (calls.exec (.forCount index (.var length)
      (statement item inner ++ [.store array (.var index) (.var item)]))) filled
      (Step.replicate k element) fun o as after => o = none ∧ as.length = k
        ∧ after.lookup array = some (.array (as ++ List.replicate (k - as.length) .null))
        ∧ Keeps scope.taken locals after := by
    refine mirrors_forCount count ⟨start, keptArray⟩ ?_
    rintro done before few ⟨heldArray, kept⟩
    -- Setting the position keeps the array and whatever is in use around it.
    have placed := keeps_set drawsIndex.new (.int (Int32.ofNat done.length)) before
    have outer := placed.mono fun n hn => drawsArray.subset n (drawsLength.subset n hn)
    have next := does_store hk few (Locals.lookup_set_self _ _ _)
      ((placed array drawsArray.self_mem).trans heldArray) drawsIndex.self_mem
      (drawsIndex.subset array drawsArray.self_mem) within new
      (slot item withIndex.taken inner _ drawsItem.new drawsItem.subset)
    exact next.weaken fun a after h => ⟨h.1, (kept.trans outer).trans h.2⟩
  refine Does.cons (loop.weaken fun o as after h => ⟨h.1, h.2⟩) fun as after h => Does.nil ?_
  obtain ⟨many, heldArray, kept⟩ := h
  rw [many, Nat.sub_self, List.replicate_zero, List.append_nil] at heldArray
  exact ⟨heldArray, kept⟩

end Containers

/-! ## §6. Codecs. -/

section Codecs

variable {calls : Calls} {locals : Locals}

theorem exec_add_apply {target item : String} {v w w' : Value}
    (value : locals.lookup item = some v) (held : locals.lookup target = some w)
    (added : Calls.withItem v w = .ok w') (ch : Channel) :
    calls.exec (.add target (.var item)) ⟨locals, ch⟩ = (.ok none, ⟨locals.set target w', ch⟩) := by
  rw [Calls.exec, Calls.eval, Step.bind_ok (Run.valueOf_apply value ch),
    Step.bind_ok (Run.update_apply held added ch)]
  rfl

theorem exec_put_apply {target key item : String} {k v w w' : Value}
    (hk : locals.lookup key = some k) (value : locals.lookup item = some v)
    (held : locals.lookup target = some w) (stored : Calls.withEntry k v w = .ok w')
    (ch : Channel) :
    calls.exec (.put target (.var key) (.var item)) ⟨locals, ch⟩
      = (.ok none, ⟨locals.set target w', ch⟩) := by
  rw [Calls.exec, Calls.eval, Calls.eval, Step.bind_ok (Run.valueOf_apply hk ch),
    Step.bind_ok (Run.valueOf_apply value ch), Step.bind_ok (Run.update_apply held stored ch)]
  rfl

theorem withItem_collect (kind : Java.SequenceKind) (items : List Value) (v : Value) :
    Calls.withItem v (Format.collect kind items) = .ok (Format.collect kind (items ++ [v])) := by
  cases kind <;> rfl

theorem withEntry_mapOf (pairs : List (Value × Value)) (k v : Value) :
    Calls.withEntry k v (.map (Format.mapOf pairs))
      = .ok (.map (Format.mapOf (pairs ++ [(k, v)]))) := by
  unfold Format.mapOf
  rw [List.foldl_append]
  rfl

theorem withEntry_sparseOf (pairs : List (Int32 × Value)) (k : Int32) (v : Value) :
    Calls.withEntry (.int k) v (.sparseArray (Format.sparseOf pairs))
      = .ok (.sparseArray (Format.sparseOf (pairs ++ [(k, v)]))) := by
  unfold Format.sparseOf
  rw [List.foldl_append]
  rfl

/-- What a companion reads for a codec is what the codec says.  The induction is on the codec; the
scope and the local variables differ from one level to the next. -/
theorem yields_readPresent (s : Surroundings) : ∀ (c : Codec) (scope : NameScope) (locals : Locals),
    Yields calls (s.readPresent c scope) scope.taken locals (calls.decode s.statics.refTo c)
  | .leaf ty l, scope, locals => Yields.ofExpr (mirrors_readLeaf s ty l)
  | .array ty e, scope, locals => by
    rw [Surroundings.readPresent, Calls.decode]
    refine yields_readArray (fun item names inner before new sub => ?_) locals
    exact does_readSlot new (fun L => (yields_readPresent s e inner L).keeping sub) before
  | .sequence ty kind box e, scope, locals => by
    rw [Surroundings.readPresent, Calls.decode]
    refine yields_readContainer (by cases kind <;> rfl) ?_ locals
    intro target inner before done new there sub held
    obtain ⟨item, withItem, allocated, draws⟩ := inner.exists_allocate "element"
    simp only [allocated]
    rw [← bind_pure (Format.readSlot _ _ _)]
    refine (does_readSlot draws.new
      (fun L => (yields_readPresent s e withItem L).keeping draws.subset) before).append ?_
    rintro v after ⟨heldItem, kept⟩
    -- The element keeps every name that is in use, so the container is still there.
    have held' := (kept target there).trans held
    refine Does.cons_local (exec_add_apply heldItem held' (withItem_collect kind done v))
      (Does.nil ⟨Locals.lookup_set_self _ _ _, ?_⟩)
    exact (kept.mono sub).trans (keeps_set new _ after)
  | .map ty box k v, scope, locals => by
    rw [Surroundings.readPresent, Calls.decode]
    refine yields_readContainer rfl ?_ locals
    intro target inner before done new there sub held
    obtain ⟨key, withKey, allocated, drawsKey⟩ := inner.exists_allocate "key"
    obtain ⟨item, withItem, allocated', drawsItem⟩ := withKey.exists_allocate "value"
    simp only [allocated, allocated']
    unfold Format.readPair
    rw [List.append_assoc]
    refine (does_readSlot drawsKey.new
      (fun L => (yields_readPresent s k withKey L).keeping drawsKey.subset) before).append ?_
    rintro a between ⟨heldKey, keptByKey⟩
    refine (does_readSlot drawsItem.new
      (fun L => (yields_readPresent s v withItem L).keeping drawsItem.subset) between).append ?_
    rintro b after ⟨heldItem, keptByItem⟩
    -- The value is read while the key is held; it draws its names behind the key's.
    have heldKey' := (keptByItem key drawsKey.self_mem).trans heldKey
    have kept := keptByKey.trans (keptByItem.mono drawsKey.subset)
    have held' := (kept target there).trans held
    refine Does.cons_local (exec_put_apply heldKey' heldItem held' (withEntry_mapOf done a b))
      (Does.nil ⟨Locals.lookup_set_self _ _ _, ?_⟩)
    exact (kept.mono sub).trans (keeps_set new _ after)
  | .sparseArray ty e, scope, locals => by
    rw [Surroundings.readPresent, Calls.decode]
    refine yields_readContainer rfl ?_ locals
    intro target inner before done new there sub held
    obtain ⟨key, withKey, allocated, drawsKey⟩ := inner.exists_allocate "key"
    obtain ⟨item, withItem, allocated', drawsItem⟩ := withKey.exists_allocate "value"
    simp only [allocated, allocated']
    unfold Format.readPair
    rw [List.append_assoc, List.singleton_append]
    refine Does.cons (mirrors_declare (mirrors_readInt none)) ?_
    rintro n _ ⟨_, same, ⟨rfl, unchanged⟩, rfl⟩
    rw [unchanged]
    have keptByKey := keeps_set drawsKey.new (.int n) before
    refine (does_readSlot drawsItem.new
      (fun L => (yields_readPresent s e withItem L).keeping drawsItem.subset) _).append ?_
    rintro b after ⟨heldItem, keptByItem⟩
    have heldKey := (keptByItem key drawsKey.self_mem).trans (Locals.lookup_set_self _ _ _)
    have kept := keptByKey.trans (keptByItem.mono drawsKey.subset)
    have held' := (kept target there).trans held
    refine Does.cons_local (exec_put_apply heldKey heldItem held' (withEntry_sparseOf done n b))
      (Does.nil ⟨Locals.lookup_set_self _ _ _, ?_⟩)
    exact (kept.mono sub).trans (keeps_set new _ after)
  | .adapter _ _ _, _, _ => Yields.ofExpr (Mirrors.read _)

end Codecs

/-! ## §7. Calls that read as the format does. -/

section Readers

variable {calls : Calls} {readers : Readers} (h : calls.ReadsAs readers)

include h

/-- An operation does what its layout says. -/
theorem readOp_eq_readLayout (op : Wire.Op) :
    calls.readOp op = Format.readLayout readers (.op op) := by
  cases op with
  | parcelable => exact h.named
  | value =>
    show calls.readOp .value = Format.readTagged readers
    unfold Calls.readOp Format.readTagged
    rw [h.named]
  | _ => rfl

theorem readLeaf_eq_readLayout {ty : JavaType} {l : Leaf}
    (links : (Codec.leaf ty l).Links (calls.ReadsClass readers)) :
    calls.readLeaf l = Format.readLayout readers (l.layout ty) := by
  cases l with
  | enum => rfl
  | nested companion => exact links companion rfl
  | string => exact readOp_eq_readLayout h .string
  | sparseBooleanArray => exact readOp_eq_readLayout h .sparseBooleanArray
  | parcelable => exact readOp_eq_readLayout h .parcelable
  | serializable => exact readOp_eq_readLayout h .serializable
  | tagged => exact readOp_eq_readLayout h .value
  | _ => exact readOp_eq_readLayout h _

/-- Where the calls read instances as readers do, what is read along a codec is its decoding. -/
theorem decode_eq_decodeWith (refTo : AdapterUse → AdapterRef) : ∀ {c : Codec},
    c.Links (calls.ReadsClass readers) →
      calls.decode refTo c = Format.decodeWith guardedCount readers c
  | .leaf _ _, links => readLeaf_eq_readLayout h links
  | .array _ e, links => by
    rw [Calls.decode, Format.decodeWith, decode_eq_decodeWith refTo (c := e) links]
  | .sequence _ _ _ e, links => by
    rw [Calls.decode, Format.decodeWith, decode_eq_decodeWith refTo (c := e) links]
  | .map _ _ k v, links => by
    rw [Calls.decode, Format.decodeWith, decode_eq_decodeWith refTo links.1,
      decode_eq_decodeWith refTo links.2]
  | .sparseArray _ e, links => by
    rw [Calls.decode, Format.decodeWith, decode_eq_decodeWith refTo (c := e) links]
  | .adapter _ _ _, links => links.elim

end Readers

end ParcelCodec
