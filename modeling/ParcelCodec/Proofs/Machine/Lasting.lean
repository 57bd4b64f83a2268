import ParcelCodec.Proofs.Codec.Makes
import ParcelCodec.Proofs.Companion.Reading

/-!
# Reads that have depth enough

A read may be stopped for want of depth where it calls what may be stopped itself.  Whatever takes
four bytes before it calls anything needs depth only for what can come behind these bytes: so where
everything has depth enough for less than `k` bytes, all but an instance without a marker has it for
less than `k + 4`.

Main statements: `Lasts.bind` and `lasts_decode`.
-/

namespace ParcelCodec

open Wire (Cursor Advances)
open Format (guardedCount readCount readInt readElements advances_readInt advances_readSlot
  advances_readPair wide_readCount wide_guardedCount)

variable {α β : Type} {j k : Nat}

/-- With less than `k` bytes ahead, a read is not stopped for want of depth. -/
def Lasts (k : Nat) (x : Reading α) : Prop :=
  ∀ c : Cursor, c.remaining < k → (x c).1 ≠ .error .outOfDepth

namespace Lasts

/-- Depth that is enough for more bytes is enough for fewer. -/
theorem weaken {x : Reading α} (h : Lasts k x) (hjk : j ≤ k) : Lasts j x :=
  fun c few => h c (Nat.lt_of_lt_of_le few hjk)

theorem pure (a : α) : Lasts k (Pure.pure a : Reading α) := fun _ _ => nofun

/-- A failure of another kind is no want of depth. -/
theorem fail {e : RunError} (h : e ≠ .outOfDepth) : Lasts k (Step.fail e : Reading α) :=
  fun _ _ same => h (Except.error.inj same)

/-- What comes behind some bytes needs depth for fewer of them. -/
theorem bind {x : Reading α} {f : α → Reading β} (hx : Lasts (k + j) x) (wide : Advances j x)
    (hf : ∀ a, Lasts k (f a)) : Lasts (k + j) (x >>= f) := by
  intro c few
  have here := hx c few
  rcases h : x c with ⟨e | a, c'⟩
  · rw [h] at here
    rw [Step.bind_error h]
    exact fun out => here (by rw [Except.error.inj out])
  · have consumed := (wide c).2
    rw [h] at consumed
    -- The `j` bytes that were taken pay for the weaker bound on what comes behind.
    have behind : c'.remaining + j ≤ c.remaining := consumed a rfl
    rw [Step.bind_ok h]
    exact hf a c' (by omega)

/-- What follows a read has no more bytes ahead, so depth for both is depth for each. -/
theorem andThen {x : Reading α} {f : α → Reading β} (hx : Lasts k x) (forward : Advances 0 x)
    (hf : ∀ a, Lasts k (f a)) : Lasts k (x >>= f) := bind (j := 0) hx forward hf

theorem map {x : Reading α} (f : α → β) (hx : Lasts k x) : Lasts k (do return f (← x)) := by
  intro c few
  have here := hx c few
  rcases h : x c with ⟨e | a, c'⟩
  · rw [h] at here
    rw [Step.bind_error h]
    exact fun out => here (by rw [Except.error.inj out])
  · rw [Step.bind_ok h]
    exact nofun

/-- A choice needs depth for what is chosen. -/
theorem ite {p : Prop} [Decidable p] {x y : Reading α} (hx : Lasts k x) (hy : Lasts k y) :
    Lasts k (if p then x else y) := by
  split
  · exact hx
  · exact hy

/-- Restating faults does not hide that depth is wanting. -/
theorem restated {x : Reading α} (fault : DecodeFault) (hx : Lasts k x) :
    Lasts k (Step.mapError (Calls.restated (.decode fault)) x) := by
  intro c few
  have here := hx c few
  rw [Step.mapError_apply]
  rcases h : x c with ⟨e | a, c'⟩
  · rw [h] at here
    cases e <;> first | exact absurd rfl here | exact nofun
  · exact nofun

/-- Depth for one round is depth for all of them, since reads only move forward. -/
theorem replicate {x : Reading α} (hx : Lasts k x) (forward : Advances 0 x) :
    ∀ n, Lasts k (Step.replicate n x)
  | 0 => pure []
  | n + 1 => hx.andThen forward fun a => (replicate hx forward n).map (a :: ·)

/-- A slot that calls nothing only fails because of the bytes. -/
theorem ofOp (op : Wire.Op) (read : Wire.Read α) : Lasts k (Reading.ofOp op read) := by
  intro c _
  rw [Reading.ofOp_apply]
  rcases read c with ⟨e | a, c'⟩ <;> exact nofun

/-- A read of the wire calls nothing. -/
theorem slot (fault : DecodeFault) (read : Wire.Read α) :
    Lasts k (Wire.Read.slot (.decode fault) read : Reading α) := by
  intro c _
  unfold Wire.Read.slot
  rw [Step.mapError_apply]
  rcases read c with ⟨e | a, c'⟩ <;> exact nofun

end Lasts

/-! ## §1. Tagged values. -/

section Tagged

variable {fault : DecodeFault} {hook : Reading Value} (forward : Advances 0 hook)
  (lasts : Lasts k hook)

/-- The slot of a count stands in front of its items, so these have four bytes less ahead. -/
theorem lasts_counted {item : Reading α} {wrap : List α → Value} (h : Lasts k item)
    (moves : Advances 0 item) :
    Lasts (k + 4) (Wire.Read.counted (.decode fault) item wrap) := by
  refine (Lasts.slot fault _).bind (Wire.Read.advances_slot Wire.Read.advances_length) fun n => ?_
  cases n with
  | none => exact .pure _
  | some n => exact (h.replicate moves n).map wrap

include lasts

/-- Behind a tag, depth for the hook and the items is enough. -/
theorem lasts_payload {item : Reading Value} (h : Lasts k item) (moves : Advances 0 item)
    (tag : Int32) : Lasts k (Wire.Read.payload (.decode fault) hook item tag) := by
  have scalar : ∀ {β : Type} (f : β → Value) (read : Wire.Read β),
      Lasts k (do return f (← Wire.Read.slot (.decode fault) read) : Reading Value) :=
    fun f read => (Lasts.slot fault read).map f
  have pair : Lasts k (Wire.Read.pair item item) :=
    h.andThen moves fun a => h.map fun b => (a, b)
  unfold Wire.Read.payload
  refine .ite (.pure _) (.ite (scalar _ _) (.ite (scalar _ _) (.ite (scalar _ _) ?_)))
  refine .ite (scalar _ _) (.ite (scalar _ _) (.ite (scalar _ _) (.ite (scalar _ _) ?_)))
  refine .ite (scalar _ _) (.ite (scalar _ _) ?_)
  refine .ite ((lasts_counted h moves).weaken (Nat.le_add_right k 4)) ?_
  refine .ite ?_ (.ite lasts (.fail nofun))
  exact (lasts_counted pair (Wire.Read.advances_pair moves moves)).weaken (Nat.le_add_right k 4)

include forward

/-- A tagged value takes its tag before it calls anything. -/
theorem lasts_taggedWithin : ∀ depth,
    Lasts (k + 4) (Wire.Read.taggedWithin (.decode fault) hook depth)
  | 0 => .fail nofun
  | depth + 1 =>
    (Lasts.slot fault _).bind (Wire.Read.advances_slot Wire.Read.advances_int) fun tag =>
      lasts_payload lasts ((lasts_taggedWithin depth).weaken (Nat.le_add_right k 4))
        ((Wire.Read.advances_taggedWithin forward depth).weaken (Nat.zero_le 4)) tag

end Tagged

/-! ## §2. Calls that have depth enough. -/

namespace Calls

/-- What is called moves forward, and an instance behind its name takes the name. -/
structure Forward (calls : Calls) : Prop where
  nested : ∀ companion, Advances 0 (calls.readNested companion)
  named : Advances 4 calls.readInstance

variable {calls : Calls} (forward : calls.Forward)

include forward

/-- Every operation takes a slot at least, whatever it calls. -/
theorem advances_readOp (op : Wire.Op) : Advances 4 (calls.readOp op) := by
  cases op with
  | parcelable => exact forward.named
  | value =>
    intro c
    exact Wire.Read.advances_tagged ((forward.named.weaken (Nat.zero_le 4)).mapError _) c
  | _ => exact Format.advances_ofOp (Wire.Op.advances_read _)

/-- Every operation takes four bytes before it calls anything, and only some call anything. -/
theorem lasts_readOp (op : Wire.Op)
    (named : op.isPolymorphic = true → Lasts (k + 4) calls.readInstance) :
    Lasts (k + 4) (calls.readOp op) := by
  cases op with
  | parcelable => exact named rfl
  | value =>
    intro c
    -- A tagged value may hold an instance, which is read behind the tag.
    have moves := (forward.named.weaken (Nat.zero_le 4)).mapError (restated (.decode
      (.unreadable .value c.index)))
    have within := (named rfl).weaken (Nat.le_add_right k 4)
    exact lasts_taggedWithin moves (within.restated _) (c.remaining + 1) c
  | _ => exact .ofOp _ _

end Calls

/-! ## §3. Codecs. -/

/-- The bytes that a value takes at least, and before anything is called for it.  An instance need
not take any. -/
def Codec.lead : Codec → Nat
  | .leaf _ (.nested _) => 0
  | _ => 4

section Elements

variable {count : Reading Nat} {element : Reading α}

theorem lasts_toCount (n : Int32) : Lasts k (Format.toCount n) := .ite (.pure _) (.fail nofun)

theorem lasts_readCount : Lasts k readCount :=
  (Lasts.ofOp _ _).andThen (advances_readInt.weaken (Nat.zero_le 4)) lasts_toCount

theorem lasts_guardedCount : Lasts k guardedCount := by
  refine (Lasts.ofOp _ _).andThen (advances_readInt.weaken (Nat.zero_le 4)) fun n => ?_
  refine (lasts_toCount n).andThen (Format.advances_toCount n) fun _ => ?_
  exact Lasts.andThen (fun _ _ => nofun) Format.advances_readRemaining fun _ =>
    .ite (.fail nofun) (.pure _)

theorem wide_readElements (wide : Advances 4 count) (forward : Advances 0 element) :
    Advances 4 (readElements count element) :=
  wide.andThen fun n => Advances.replicate_zero forward n

/-- The number of the elements stands in front of all of them. -/
theorem lasts_readElements (hc : Lasts (k + 4) count) (wide : Advances 4 count)
    (he : Lasts k element) (forward : Advances 0 element) :
    Lasts (k + 4) (readElements count element) :=
  hc.bind wide fun n => he.replicate forward n

/-- A pair has depth enough if both of its parts have. -/
theorem lasts_readPair {first : Reading α} {second : Reading β} (hf : Lasts k first)
    (forward : Advances 0 first) (hs : Lasts k second) :
    Lasts k (Format.readPair first second) :=
  hf.andThen forward fun a => hs.map fun b => (a, b)

/-- A slot has depth enough if the value behind its marker has. -/
theorem lasts_readSlot (c : Codec) (nullable : Bool) {direct : Reading Value}
    (h : Lasts k direct) : Lasts k (Format.readSlot c nullable direct) := by
  unfold Format.readSlot
  exact .ite ((Lasts.ofOp _ _).andThen (advances_readInt.weaken (Nat.zero_le 4)) fun _ =>
    .ite h (.pure _)) h

end Elements

namespace Calls

variable {calls : Calls} {p : JavaType → String → Prop} (refTo : AdapterUse → AdapterRef)
  (forward : calls.Forward)

include forward

/-- A leaf takes what its codec leads with: nothing for an instance, and else a slot. -/
theorem advances_readLeaf {ty : JavaType} (l : Leaf) :
    Advances (Codec.leaf ty l).lead (calls.readLeaf l) := by
  cases l with
  | nested companion => exact forward.nested companion
  | enum =>
    refine (Format.advances_ofOp Wire.Read.advances_string).andThen fun name => ?_
    cases name with
    | none => exact .pure _
    | some name => exact .pure _
  | _ => exact advances_readOp forward _

/-- So does every codec, since containers lead with a count. -/
theorem advances_decode : ∀ {c : Codec}, c.Links p → Advances c.lead (calls.decode refTo c)
  | .leaf _ l, _ => advances_readLeaf forward l
  | .array _ e, links => by
    have moves := (advances_decode (c := e) links).weaken (Nat.zero_le _)
    exact (wide_readElements wide_guardedCount (advances_readSlot e _ moves)).map _
  | .sequence _ _ _ e, links => by
    have moves := (advances_decode (c := e) links).weaken (Nat.zero_le _)
    exact (wide_readElements wide_readCount (advances_readSlot e _ moves)).map _
  | .map _ _ k v, links => by
    have keyMoves := (advances_decode (c := k) links.1).weaken (Nat.zero_le _)
    have valueMoves := (advances_decode (c := v) links.2).weaken (Nat.zero_le _)
    exact (wide_readElements wide_readCount (advances_readPair (advances_readSlot k _ keyMoves)
      (advances_readSlot v _ valueMoves))).map _
  | .sparseArray _ e, links => by
    have moves := (advances_decode (c := e) links).weaken (Nat.zero_le _)
    exact (wide_readElements wide_readCount (advances_readPair
      (advances_readInt.weaken (Nat.zero_le _)) (advances_readSlot e _ moves))).map _
  | .adapter _ _ _, links => links.elim

/-- An element may take no bytes at all. -/
theorem advances_element (c : Codec) (nullable : Bool) (links : c.Links p) :
    Advances 0 (Format.readSlot c nullable (calls.decode refTo c)) :=
  advances_readSlot c nullable ((advances_decode refTo forward links).weaken (Nat.zero_le _))

/-- A leaf has depth enough if the instances have it that it can hold. -/
theorem lasts_readLeaf {ty : JavaType} (l : Leaf)
    (nested : ∀ companion, l = .nested companion → Lasts k (calls.readNested companion))
    (named : ∀ op, l.layout ty = .op op → op.isPolymorphic = true →
      Lasts (k + 4) calls.readInstance) :
    Lasts (k + (Codec.leaf ty l).lead) (calls.readLeaf l) := by
  cases l with
  | nested companion => exact nested companion rfl
  | enum =>
    refine (Lasts.ofOp _ _).bind (Format.advances_ofOp Wire.Read.advances_string) fun name => ?_
    cases name with
    | none => exact .pure _
    | some name => exact .pure _
  | _ => exact lasts_readOp forward _ (named _ rfl)

/-- A value of a codec has depth enough if the leaves of the codec have it: all of them but the
codec itself are read behind some bytes. -/
theorem lasts_decode : ∀ {c : Codec}, c.Links p →
    (∀ ty l, Codec.Part (.leaf ty l) c → Lasts (k + (Codec.leaf ty l).lead) (calls.readLeaf l)) →
    Lasts (k + c.lead) (calls.decode refTo c)
  | .leaf ty l, _, leaf => leaf ty l (.refl _)
  | .array _ e, links, leaf => by
    have element := (lasts_decode (c := e) links fun ty l part => leaf ty l (.array part)).weaken
      (Nat.le_add_right k _)
    exact (lasts_readElements lasts_guardedCount wide_guardedCount (lasts_readSlot e _ element)
      (advances_element refTo forward e _ links)).map _
  | .sequence _ _ _ e, links, leaf => by
    have element := (lasts_decode (c := e) links fun ty l part => leaf ty l (.sequence part)).weaken
      (Nat.le_add_right k _)
    exact (lasts_readElements lasts_readCount wide_readCount (lasts_readSlot e _ element)
      (advances_element refTo forward e _ links)).map _
  | .map _ box key value, links, leaf => by
    have first := (lasts_decode (c := key) links.1 fun ty l part => leaf ty l (.key part)).weaken
      (Nat.le_add_right k _)
    have second := (lasts_decode (c := value) links.2 fun ty l part =>
      leaf ty l (.value part)).weaken (Nat.le_add_right k _)
    have keyMoves := advances_element refTo forward key box.nulls links.1
    have valueMoves := advances_element refTo forward value true links.2
    exact (lasts_readElements lasts_readCount wide_readCount
      (lasts_readPair (lasts_readSlot key _ first) keyMoves (lasts_readSlot value _ second))
      (advances_readPair keyMoves valueMoves)).map _
  | .sparseArray _ e, links, leaf => by
    have element := (lasts_decode (c := e) links fun ty l part =>
      leaf ty l (.sparseArray part)).weaken (Nat.le_add_right k _)
    -- The keys are words, which need no depth.
    have position := advances_readInt.weaken (Nat.zero_le 4)
    exact (lasts_readElements lasts_readCount wide_readCount
      (lasts_readPair (Lasts.ofOp _ _) position (lasts_readSlot e _ element))
      (advances_readPair position (advances_element refTo forward e _ links))).map _
  | .adapter _ _ _, links, _ => links.elim

end Calls

end ParcelCodec
