import ParcelCodec.Companion
import ParcelCodec.Proofs.NameScope

/-!
# Names that are visible

A procedure may introduce a local variable where no variable of that name is visible: no parameter,
none that the block has declared before, and none of an enclosing block or loop.

A name that is drawn from a scope is new if the scope holds whatever is visible (`Holds`), and also
if what it does not hold could not be drawn for the base (`Clear`).
-/

namespace ParcelCodec

/-! ## §1. Visible names. -/

/-- A name can be introduced: it is not visible, and it is no reserved word. -/
def isNew (visible : List String) (name : String) : Bool :=
  !Java.reservedWords.contains name && !visible.contains name

namespace Stmt

/-- What a statement declares for the statements behind it. -/
def declared : Stmt → List String
  | .declare name _ _ => [name]
  | _ => []

mutual

/-- Whether each name that a statement introduces is new where it is introduced. -/
def isScoped : List String → Stmt → Bool
  | visible, .declare name _ _ => isNew visible name
  | visible, .ifPresent body => areScoped visible body
  | visible, .ifNull _ thens otherwise => areScoped visible thens && areScoped visible otherwise
  | visible, .forCount index _ body => isNew visible index && areScoped (index :: visible) body
  | visible, .forEach var _ _ body => isNew visible var && areScoped (var :: visible) body
  | visible, .forEntries key _ value _ _ body =>
    isNew visible key && isNew (key :: visible) value
      && areScoped (value :: key :: visible) body
  | _, _ => true

/-- Whether each name that a block introduces is new where it is introduced. -/
def areScoped : List String → List Stmt → Bool
  | _, [] => true
  | visible, stmt :: rest => stmt.isScoped visible && areScoped (stmt.declared ++ visible) rest

end

/-- What is visible behind some statements. -/
def after (visible : List String) (stmts : List Stmt) : List String :=
  stmts.foldl (fun visible stmt => stmt.declared ++ visible) visible

/-- What is visible behind two pieces of code is visible behind the second, after the first. -/
theorem after_append (visible : List String) (a b : List Stmt) :
    after visible (a ++ b) = after (after visible a) b := List.foldl_append

/-- Two pieces of code are scoped when the first is, and the second is with what the first shows. -/
theorem areScoped_append (visible : List String) (a b : List Stmt) :
    areScoped visible (a ++ b) = (areScoped visible a && areScoped (after visible a) b) := by
  induction a generalizing visible with
  | nil => rfl
  | cons stmt rest ih =>
    show (_ && areScoped _ (rest ++ b)) = ((_ && areScoped _ rest) && _)
    rw [ih, Bool.and_assoc]
    rfl

end Stmt

/-- The parameters of a procedure. -/
def Procedure.parameters (p : Procedure) : List String :=
  match p.value with
  | none => [NameScope.input]
  | some value => [value, NameScope.output, NameScope.flags]

/-- Whether a procedure introduces no name that is visible. -/
def Procedure.localsApart (p : Procedure) : Bool := Stmt.areScoped p.parameters p.body

/-- The procedures of a companion. -/
def Companion.procedures (c : Companion) : List Procedure :=
  c.read :: c.write :: c.codecs.flatMap fun codec => [codec.read, codec.write]

/-- Whether the procedures of a companion introduce no names that are visible. -/
def Companion.localsApart (c : Companion) : Bool := c.procedures.all (·.localsApart)

/-! ## §2. Scopes that hold what is visible. -/

/-- A new name is neither reserved nor visible. -/
theorem isNew_iff {visible : List String} {name : String} :
    isNew visible name = true ↔ name ∉ Java.reservedWords ∧ name ∉ visible := by
  simp [isNew]

namespace NameScope

variable {scope : NameScope} {visible : List String} {name : String}

/-- A scope holds whatever is visible. -/
def Holds (scope : NameScope) (visible : List String) : Prop := ∀ n ∈ visible, n ∈ scope.taken

instance : Decidable (Holds scope visible) :=
  inferInstanceAs (Decidable (∀ n ∈ visible, n ∈ scope.taken))

/-- No fresh name is a reserved word. -/
theorem fresh_not_mem_reserved (scope : NameScope) (base : String) :
    scope.fresh base ∉ Java.reservedWords := by
  have free := scope.contains_fresh base
  intro reserved
  simp [contains, reserved] at free

/-- A scope that holds what is visible draws new names only. -/
theorem Holds.isNew (h : Holds scope visible) (base : String) :
    isNew visible (scope.fresh base) = true :=
  isNew_iff.mpr ⟨scope.fresh_not_mem_reserved base, fun seen => scope.fresh_not_mem base (h _ seen)⟩

/-- A name is drawn, and introduced later. -/
theorem Holds.reserve (h : Holds scope visible) (base : String) :
    Holds (scope.drawn base) visible :=
  fun n hn => scope.mem_drawn base (h n hn)

/-- A name is drawn and introduced. -/
theorem Holds.draw (h : Holds scope visible) (base : String) :
    Holds (scope.drawn base) (scope.fresh base :: visible) := by
  intro n hn
  rcases List.mem_cons.mp hn with rfl | hn
  · exact scope.fresh_mem_drawn base
  · exact h.reserve base n hn

/-- Names for some bases can be drawn as if the scope held whatever is visible. -/
structure Clear (scope : NameScope) (bases visible : List String) : Prop where
  plain : scope.separator = ""
  apart : ∀ n ∈ visible, n ∈ scope.taken ∨ ∀ base ∈ bases, stem n ≠ stem base

variable {bases fewer : List String}

/-- It is clear for every base. -/
theorem Holds.clear (h : Holds scope visible) (plain : scope.separator = "") :
    Clear scope bases visible := ⟨plain, fun n hn => .inl (h n hn)⟩

/-- Fewer bases need less. -/
theorem Clear.mono (h : Clear scope bases visible) (sub : fewer ⊆ bases) :
    Clear scope fewer visible :=
  ⟨h.plain, fun n hn => (h.apart n hn).imp_right fun other base hb => other base (sub hb)⟩

/-- A clear scope draws new names for its bases. -/
theorem Clear.isNew (h : Clear scope bases visible) {base : String} (hb : base ∈ bases) :
    isNew visible (scope.fresh base) = true := by
  refine isNew_iff.mpr ⟨scope.fresh_not_mem_reserved base, fun seen => ?_⟩
  rcases h.apart _ seen with held | other
  · exact scope.fresh_not_mem base held
  · exact other base hb (stem_fresh h.plain)

/-- More visible names that the scope holds. -/
theorem Clear.cons (h : Clear scope bases visible) (held : name ∈ scope.taken) :
    Clear scope bases (name :: visible) := by
  refine ⟨h.plain, fun n hn => ?_⟩
  rcases List.mem_cons.mp hn with rfl | hn
  · exact .inl held
  · exact h.apart n hn

/-- Drawing a name keeps the scope clear. -/
theorem Clear.reserve (h : Clear scope bases visible) (base : String) :
    Clear (scope.drawn base) bases visible :=
  ⟨h.plain, fun n hn => (h.apart n hn).imp_left (scope.mem_drawn base)⟩

/-- Drawing a name keeps the scope clear even where the name becomes visible. -/
theorem Clear.draw (h : Clear scope bases visible) (base : String) :
    Clear (scope.drawn base) bases (scope.fresh base :: visible) :=
  (h.reserve base).cons (scope.fresh_mem_drawn base)

end NameScope

end ParcelCodec
