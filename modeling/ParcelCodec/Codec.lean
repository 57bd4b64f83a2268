import ParcelCodec.Java.Platform

/-!
# Codecs

How values of one type are written and read.  A codec is a tree: a leaf is a single slot, and a
composite codec holds the codecs of its elements.  A data class inside another one is a leaf,
which names the companion of that class, so that codecs stay finite where classes refer to each
other.

An adapter's codec holds the codecs of whatever the adapter depends on.
-/

namespace ParcelCodec

/-! ## §1. The tree. -/

/-- A codec without parts. -/
inductive Leaf where
  | primitive (p : Java.Primitive)
  /-- A boxed primitive. -/
  | boxed (p : Java.Primitive)
  | string
  /-- A platform class that one buffer operation carries. -/
  | platform (op : Wire.Op)
  | primitiveArray (p : Java.Primitive)
  | sparseBooleanArray
  /-- An enum, by the name of its constant. -/
  | enum
  /-- A data class, by its companion. -/
  | nested (companion : String)
  /-- An instance of a class that is only known by name. -/
  | parcelable
  | serializable
  /-- Any value, behind a tag that says what it is. -/
  | tagged
  deriving Repr, DecidableEq

/-- What a container is rebuilt with. -/
structure Container where
  /-- The declared type is an interface. -/
  interface : Bool
  /-- The class that is instantiated, with the declared type arguments. -/
  concrete : JavaType
  /-- The class takes a capacity. -/
  sized : Bool
  /-- The class holds null elements (null keys, for maps); otherwise they are written without a
  marker. -/
  nulls : Bool
  deriving Repr, DecidableEq

/-- One use of an adapter. -/
structure AdapterUse where
  /-- The qualified name of the adapter. -/
  adapter : String
  /-- The type arguments of the adapter. -/
  args : List JavaType
  /-- The name that a field for it should have. -/
  ident : String
  /-- The adapter's own instance is used. -/
  viaInstance : Bool
  /-- The adapter writes null by itself. -/
  nullSafe : Bool
  deriving Repr, DecidableEq

mutual

/-- A codec for a type. -/
inductive Codec where
  | leaf (type : JavaType) (leaf : Leaf)
  | array (type : JavaType) (element : Codec)
  | sequence (type : JavaType) (kind : Java.SequenceKind) (container : Container)
    (element : Codec)
  | map (type : JavaType) (container : Container) (key value : Codec)
  | sparseArray (type : JavaType) (element : Codec)
  | adapter (type : JavaType) (use : AdapterUse) (deps : List Dependency)

/-- What an adapter is given. -/
inductive Dependency where
  /-- The codec of a type. -/
  | codec (codec : Codec)
  /-- A class token. -/
  | token (type : JavaType)

end

instance : Inhabited Codec := ⟨.leaf .object .tagged⟩

mutual

/-- Whether two codecs are equal. -/
def Codec.same : Codec → Codec → Bool
  | .leaf t l, .leaf t' l' => t == t' && l == l'
  | .array t e, .array t' e' => t == t' && e.same e'
  | .sequence t k b e, .sequence t' k' b' e' => t == t' && k == k' && b == b' && e.same e'
  | .map t b k v, .map t' b' k' v' => t == t' && b == b' && k.same k' && v.same v'
  | .sparseArray t e, .sparseArray t' e' => t == t' && e.same e'
  | .adapter t u ds, .adapter t' u' ds' => t == t' && u == u' && Dependency.sameAll ds ds'
  | _, _ => false

/-- Whether two adapters are given equal things. -/
def Dependency.sameAll : List Dependency → List Dependency → Bool
  | [], [] => true
  | .codec c :: rest, .codec c' :: rest' => c.same c' && Dependency.sameAll rest rest'
  | .token t :: rest, .token t' :: rest' => t == t' && Dependency.sameAll rest rest'
  | _, _ => false

end

mutual

theorem Codec.same_iff : ∀ {a b : Codec}, a.same b = true ↔ a = b
  | .leaf _ _, b => by cases b <;> simp [Codec.same]
  | .array _ e, b => by cases b <;> simp [Codec.same, Codec.same_iff (a := e)]
  | .sequence _ _ _ e, b => by cases b <;> simp [Codec.same, Codec.same_iff (a := e), and_assoc]
  | .map _ _ k v, b => by
    cases b <;> simp [Codec.same, Codec.same_iff (a := k), Codec.same_iff (a := v), and_assoc]
  | .sparseArray _ e, b => by cases b <;> simp [Codec.same, Codec.same_iff (a := e)]
  | .adapter _ _ ds, b => by
    cases b <;> simp [Codec.same, Dependency.sameAll_iff (a := ds), and_assoc]

theorem Dependency.sameAll_iff : ∀ {a b : List Dependency}, Dependency.sameAll a b = true ↔ a = b
  | [], b => by cases b <;> simp [Dependency.sameAll]
  | .codec c :: rest, b => by
    rcases b with _ | ⟨d, _⟩
    · simp [Dependency.sameAll]
    · cases d <;>
        simp [Dependency.sameAll, Codec.same_iff (a := c), Dependency.sameAll_iff (a := rest)]
  | .token _ :: rest, b => by
    rcases b with _ | ⟨d, _⟩
    · simp [Dependency.sameAll]
    · cases d <;> simp [Dependency.sameAll, Dependency.sameAll_iff (a := rest)]

end

instance : DecidableEq Codec := fun _ _ => decidable_of_iff _ Codec.same_iff

/-- A use of an adapter with what it is given. -/
structure AdapterInstance where
  use : AdapterUse
  deps : List Dependency

/-- Two instances of the same adapter with the same arguments are the same instance. -/
def AdapterInstance.same (a b : AdapterInstance) : Bool :=
  a.use.adapter == b.use.adapter && a.use.args == b.use.args

namespace Codec

/-! ## §2. Views. -/

/-- The type of a codec. -/
def type : Codec → JavaType
  | .leaf t _ | .array t _ | .sequence t _ _ _ | .map t _ _ _ | .sparseArray t _
  | .adapter t _ _ => t

/-- Any value behind a tag. -/
def isTagged : Codec → Bool
  | .leaf _ .tagged => true
  | _ => false

/-- A composite codec is declared once and shared. -/
def isComposite : Codec → Bool
  | .leaf _ _ | .adapter _ _ _ => false
  | _ => true

/-- A value of the codec needs no marker that says whether it is null. -/
def isNullSafe : Codec → Bool
  | .leaf _ (.primitive _) => true
  | .adapter _ use _ => use.nullSafe
  | _ => false

/-- The kind of the container, for a container. -/
def collectionKind? : Codec → Option Java.CollectionKind
  | .sequence _ kind _ _ => some (.sequence kind)
  | .map _ _ _ _ => some .map
  | _ => none

/-! ## §3. What a codec needs. -/

/-- Whether a leaf is read with the class loader. -/
def leafRequiresClassLoader : Leaf → Bool
  | .platform op => op.needsClassLoader
  | .parcelable | .tagged => true
  | _ => false

/-- Whether something in the codec is read with the class loader.  An adapter takes care of
itself. -/
def requiresClassLoader : Codec → Bool
  | .leaf _ l => leafRequiresClassLoader l
  | .array _ e | .sequence _ _ _ e | .sparseArray _ e => e.requiresClassLoader
  | .map _ _ k v => k.requiresClassLoader || v.requiresClassLoader
  | .adapter _ _ _ => false

mutual

/-- The adapter instances that a codec needs besides those already listed: each once, and after
everything that it depends on. -/
def addAdapters : Codec → List AdapterInstance → List AdapterInstance
  | .leaf _ _, seen => seen
  | .array _ e, seen | .sequence _ _ _ e, seen | .sparseArray _ e, seen => addAdapters e seen
  | .map _ _ k v, seen => addAdapters v (addAdapters k seen)
  | .adapter _ use deps, seen =>
    -- What the adapter depends on comes first.
    let seen := addAdaptersOf deps seen
    let it : AdapterInstance := ⟨use, deps⟩
    if seen.any it.same then seen else seen ++ [it]

/-- The adapter instances that dependencies need besides those already listed. -/
def addAdaptersOf : List Dependency → List AdapterInstance → List AdapterInstance
  | [], seen => seen
  | .codec c :: rest, seen => addAdaptersOf rest (addAdapters c seen)
  | .token _ :: rest, seen => addAdaptersOf rest seen

end

/-- The adapter instances that a codec needs, each once and after what it depends on. -/
def requiredAdapters (c : Codec) : List AdapterInstance := c.addAdapters []

end Codec

end ParcelCodec
