import ParcelCodec.Proofs.Machine.Mirrors

/-!
# Procedures that write given bytes

A procedure that writes is compared with the bytes that it should append.  A run *emits* bytes if,
whatever was written before, it succeeds and appends exactly these bytes.

Main statements: the rules by which runs emit bytes, one for each way in which statements are put
together (`Appends.append`, `emits_each`, `emits_times`, `emits_exec_write`).
-/

namespace ParcelCodec

open Wire (Emission)

variable {α β : Type}

/-! ## §1. Runs that emit. -/

/-- A run that starts with given local variables appends bytes and succeeds. -/
def Emits (x : Run α) (locals : Locals) (bytes : List UInt8) (post : α → Locals → Prop) : Prop :=
  ∀ out : Array UInt8, ∃ a after,
    x ⟨locals, .output out⟩ = (.ok a, ⟨after, .output (out ++ bytes)⟩) ∧ post a after

theorem appendList_assoc (out : Array UInt8) (first second : List UInt8) :
    out ++ first ++ second = out ++ (first ++ second) := by
  apply Array.ext'
  rw [Array.toList_appendList, Array.toList_appendList, Array.toList_appendList, List.append_assoc]

namespace Emits

variable {x : Run α} {locals : Locals} {bytes : List UInt8} {post : α → Locals → Prop}

theorem pure {a : α} (h : post a locals) : Emits (Pure.pure a) locals [] post := by
  intro out
  rw [Array.appendList_nil]
  exact ⟨a, locals, rfl, h⟩

theorem weaken {post' : α → Locals → Prop} (h : Emits x locals bytes post)
    (hp : ∀ a after, post a after → post' a after) : Emits x locals bytes post' := by
  intro out
  obtain ⟨a, after, run, ha⟩ := h out
  exact ⟨a, after, run, hp a after ha⟩

theorem bind {f : α → Run β} {bytes' : List UInt8} {post' : β → Locals → Prop}
    (hx : Emits x locals bytes post)
    (hf : ∀ a after, post a after → Emits (f a) after bytes' post') :
    Emits (x >>= f) locals (bytes ++ bytes') post' := by
  intro out
  obtain ⟨a, after, run, ha⟩ := hx out
  obtain ⟨b, after', run', hb⟩ := hf a after ha (out ++ bytes)
  refine ⟨b, after', ?_, hb⟩
  rw [Step.bind_ok run, run', appendList_assoc]

/-- A last step that only answers adds nothing. -/
theorem andPure {b : β} {post' : β → Locals → Prop} (hx : Emits x locals bytes post)
    (hp : ∀ a after, post a after → post' b after) :
    Emits (x >>= fun _ => Pure.pure b) locals bytes post' := by
  have run := hx.bind fun a after ha => Emits.pure (a := b) (hp a after ha)
  rwa [List.append_nil] at run

/-- A step that writes nothing adds nothing. -/
theorem bind_local {f : α → Run β} {a : α} {after : Locals} {post' : β → Locals → Prop}
    (hx : ∀ ch, x ⟨locals, ch⟩ = (.ok a, ⟨after, ch⟩)) (hf : Emits (f a) after bytes post') :
    Emits (x >>= f) locals bytes post' := by
  intro out
  rw [Step.bind_ok (hx (.output out))]
  exact hf out

theorem write {w : Writing} (h : w = .wrote bytes) :
    Emits (Run.write w) locals bytes fun _ after => after = locals := by
  intro out
  subst h
  exact ⟨(), locals, rfl, rfl⟩

end Emits

/-! ## §2. Statements. -/

/-- Statements that emit bytes and do not end their procedure. -/
def Appends (calls : Calls) (stmts : List Stmt) (locals : Locals) (bytes : List UInt8)
    (post : Locals → Prop) : Prop :=
  Emits (calls.execAll stmts) locals bytes fun o after => o = none ∧ post after

namespace Appends

variable {calls : Calls} {stmts rest : List Stmt} {s : Stmt} {locals after : Locals}
  {bytes bytes' : List UInt8} {post post' : Locals → Prop}

theorem nil (h : post locals) : Appends calls [] locals [] post := Emits.pure ⟨rfl, h⟩

theorem weaken (h : Appends calls stmts locals bytes post)
    (hp : ∀ after, post after → post' after) : Appends calls stmts locals bytes post' :=
  Emits.weaken h fun _ after ha => ⟨ha.1, hp after ha.2⟩

theorem cons (hs : Emits (calls.exec s) locals bytes fun o after => o = none ∧ post after)
    (hr : ∀ after, post after → Appends calls rest after bytes' post') :
    Appends calls (s :: rest) locals (bytes ++ bytes') post' := by
  unfold Appends
  rw [Calls.execAll]
  refine hs.bind ?_
  rintro _ after ⟨rfl, ha⟩
  exact hr after ha

/-- A statement that writes nothing adds nothing. -/
theorem cons_local (hs : ∀ ch, calls.exec s ⟨locals, ch⟩ = (.ok none, ⟨after, ch⟩))
    (hr : Appends calls rest after bytes post) : Appends calls (s :: rest) locals bytes post := by
  unfold Appends
  rw [Calls.execAll]
  exact Emits.bind_local hs hr

theorem single (hs : Emits (calls.exec s) locals bytes fun o after => o = none ∧ post after) :
    Appends calls [s] locals bytes post := by
  unfold Appends
  rw [Calls.execAll_singleton]
  exact hs

/-- Statements one after another emit their bytes one after another. -/
theorem append (hs : Appends calls stmts locals bytes post)
    (hr : ∀ after, post after → Appends calls rest after bytes' post') :
    Appends calls (stmts ++ rest) locals (bytes ++ bytes') post' := by
  unfold Appends
  rw [Calls.execAll_append]
  refine hs.bind ?_
  rintro _ after ⟨rfl, ha⟩
  exact hr after ha

end Appends

section Statements

variable {calls : Calls} {locals : Locals} {bytes : List UInt8}

theorem emits_exec_write {op : Wire.Op} {e : Expr} {v : Value}
    (he : ∀ ch, calls.eval e ⟨locals, ch⟩ = (.ok v, ⟨locals, ch⟩))
    (hw : calls.writeOp v op = .wrote bytes) :
    Emits (calls.exec (.write op e)) locals bytes fun o after => o = none ∧ after = locals := by
  rw [Calls.exec]
  exact Emits.bind_local he ((Emits.write hw).andPure fun _ after same => ⟨rfl, same⟩)

theorem emits_exec_writeNested {companion : String} {e : Expr} {v : Value}
    (he : ∀ ch, calls.eval e ⟨locals, ch⟩ = (.ok v, ⟨locals, ch⟩))
    (hw : calls.writeNested companion v = .wrote bytes) :
    Emits (calls.exec (.writeNested companion e)) locals bytes
      fun o after => o = none ∧ after = locals := by
  rw [Calls.exec]
  exact Emits.bind_local he ((Emits.write hw).andPure fun _ after same => ⟨rfl, same⟩)

theorem emits_exec_codecWrite {codec : String} {e : Expr} {v : Value}
    (he : ∀ ch, calls.eval e ⟨locals, ch⟩ = (.ok v, ⟨locals, ch⟩))
    (hw : calls.writeCodec codec v = .wrote bytes) :
    Emits (calls.exec (.codecWrite codec e)) locals bytes
      fun o after => o = none ∧ after = locals := by
  rw [Calls.exec]
  exact Emits.bind_local he ((Emits.write hw).andPure fun _ after same => ⟨rfl, same⟩)

theorem emits_exec_adapterWrite {adapter : AdapterRef} {e : Expr} {v : Value}
    (he : ∀ ch, calls.eval e ⟨locals, ch⟩ = (.ok v, ⟨locals, ch⟩))
    (hw : calls.writeAdapter adapter v = .wrote bytes) :
    Emits (calls.exec (.adapterWrite adapter e)) locals bytes
      fun o after => o = none ∧ after = locals := by
  rw [Calls.exec]
  exact Emits.bind_local he ((Emits.write hw).andPure fun _ after same => ⟨rfl, same⟩)

/-- A null is told apart from a value. -/
theorem emits_ifNull {e : Expr} {v : Value} {thens otherwise : List Stmt} {post : Locals → Prop}
    (he : ∀ ch, calls.eval e ⟨locals, ch⟩ = (.ok v, ⟨locals, ch⟩))
    (h : Appends calls (if v.isNull then thens else otherwise) locals bytes post) :
    Emits (calls.exec (.ifNull e thens otherwise)) locals bytes
      fun o after => o = none ∧ post after := by
  rw [Calls.exec]
  refine Emits.bind_local he ?_
  split at h
  · next null =>
    rw [if_pos null]
    exact h
  · next present =>
    rw [if_neg present]
    exact h

/-! ## §3. Loops. -/

/-- A loop over items emits the bytes of all of them. -/
theorem emits_each {body : α → Run (Option Value)} {encode : α → Option (List UInt8)}
    {inv : Locals → Prop} {items : List α}
    (step : ∀ a ∈ items, ∀ bytes locals, encode a = some bytes → inv locals →
      Emits (body a) locals bytes fun o after => o = none ∧ inv after) :
    ∀ {bytes locals}, Format.encodeAll encode items = some bytes → inv locals →
      Emits (Run.each body items) locals bytes fun o after => o = none ∧ inv after := by
  induction items with
  | nil =>
    intro bytes locals h hi
    cases h
    exact Emits.pure (a := none) ⟨rfl, hi⟩
  | cons a rest ih =>
    intro bytes locals h hi
    obtain ⟨head, tail, hh, ht, rfl⟩ := Format.encodeAll_cons h
    rw [Run.each_cons]
    refine (step a List.mem_cons_self head locals hh hi).bind ?_
    rintro _ after ⟨rfl, ha⟩
    exact ih (fun b hb => step b (List.mem_cons_of_mem a hb)) ht ha

/-- A loop over positions emits the bytes of what stands at them. -/
theorem emits_times {body : Nat → Run (Option Value)} {encode : α → Option (List UInt8)}
    {inv : Locals → Prop} (items : List α)
    (step : ∀ i a, items[i]? = some a → ∀ bytes locals, encode a = some bytes → inv locals →
      Emits (body i) locals bytes fun o after => o = none ∧ inv after) :
    ∀ {rest : List α} {i bytes locals}, items.drop i = rest →
      Format.encodeAll encode rest = some bytes → inv locals →
      Emits (Run.times body rest.length i) locals bytes fun o after => o = none ∧ inv after
  | [], i, bytes, locals, _, h, hi => by
    cases h
    exact Emits.pure (a := none) ⟨rfl, hi⟩
  | a :: rest, i, bytes, locals, hd, h, hi => by
    obtain ⟨head, tail, hh, ht, rfl⟩ := Format.encodeAll_cons h
    have here : items[i]? = some a := by
      rw [← List.head?_drop, hd]
      rfl
    have next : items.drop (i + 1) = rest := by
      rw [← List.tail_drop, hd]
      rfl
    rw [List.length_cons, Run.times_succ]
    refine (step i a here head locals hh hi).bind ?_
    rintro _ after ⟨rfl, ha⟩
    exact emits_times items step next ht ha

end Statements

end ParcelCodec
