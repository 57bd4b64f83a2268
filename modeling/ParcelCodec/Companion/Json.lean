import ParcelCodec.Companion
import ParcelCodec.Java.FullType
import ParcelCodec.Json.Record

/-!
# Companions as JSON

Companions can be stored and loaded again.  Each expression and each statement is an array whose
first item is a tag that says which it is; the other items are its parts in their order.  Types are
written in full, and a part that may be missing is null.

Loading descends into a document no deeper than the document is.
-/

namespace ParcelCodec

open Json (string? bool? list? nullable?)

/-! ## §1. Tagged arrays. -/

/-- An array that starts with a tag. -/
def Json.form (tag : String) (parts : List Json) : Json := .arr (.text tag :: parts)

/-- The tag of an array and the items behind it. -/
def Json.form? : Json → Option (String × List Json)
  | .arr (.str (some tag) :: parts) => some (tag, parts)
  | _ => none

/-- Anything or null. -/
def Json.orNull (f : α → Json) : Option α → Json
  | none => .null
  | some a => f a

/-- A member of an object. -/
def Json.member? (j : Json) (name : String) : Option Json :=
  match j with
  | .obj members => members.lookup (some name)
  | _ => none

/-- A type, written in full. -/
def JavaType.toJson (t : JavaType) : Json := .text t.display

/-- The type that a document spells out. -/
def JavaType.ofJson? (j : Json) : Option JavaType := string? j >>= JavaType.ofFullText?

mutual

/-- How deep a document is. -/
def Json.depth : Json → Nat
  | .arr items => Json.depthOfItems items + 1
  | .obj members => Json.depthOfMembers members + 1
  | _ => 1

/-- How deep the items of an array are. -/
def Json.depthOfItems : List Json → Nat
  | [] => 0
  | j :: rest => max j.depth (Json.depthOfItems rest)

/-- How deep the members of an object are. -/
def Json.depthOfMembers : List (Option String × Json) → Nat
  | [] => 0
  | (_, j) :: rest => max j.depth (Json.depthOfMembers rest)

end

/-! ## §2. Expressions. -/

def AdapterRef.toJson : AdapterRef → Json
  | .field name => .form "field" [.text name]
  | .ownInstance className => .form "instance" [.text className]

def AdapterRef.ofJson? (j : Json) : Option AdapterRef := do
  match ← j.form? with
  | ("field", [name]) => return .field (← string? name)
  | ("instance", [name]) => return .ownInstance (← string? name)
  | _ => none

/-- Every kind of container. -/
def ContainerKind.all : List ContainerKind :=
  [.collection (.sequence .list), .collection (.sequence .set), .collection (.sequence .queue),
   .collection .map, .sparseArray]

def ContainerKind.ofJson? (j : Json) : Option ContainerKind := do
  let name ← string? j
  ContainerKind.all.find? (·.name == name)

def Wire.Op.ofJson? (j : Json) : Option Wire.Op := string? j >>= Wire.Op.ofName?

mutual

def Expr.toJson : Expr → Json
  | .var name => .form "var" [.text name]
  | .null => .form "null" []
  | .int n => .form "int" [.int n.toInt]
  | .read op loader => .form "read" [.text op.name, Json.orNull .text loader]
  | .size e => .form "size" [e.toJson]
  | .length e => .form "length" [e.toJson]
  | .index e i => .form "index" [e.toJson, i.toJson]
  | .keyAt e i => .form "key_at" [e.toJson, i.toJson]
  | .valueAt e i => .form "value_at" [e.toJson, i.toJson]
  | .newContainer kind t capacity =>
    .form "new_container" [.text kind.name, t.toJson, Expr.capacityToJson capacity]
  | .newArray t e => .form "new_array" [t.toJson, e.toJson]
  | .cast t e => .form "cast" [t.toJson, e.toJson]
  | .enumValueOf t e => .form "enum_value_of" [t.toJson, e.toJson]
  | .enumName e => .form "enum_name" [e.toJson]
  | .readNested companion => .form "read_nested" [.text companion]
  | .adapterRead adapter => .form "adapter_read" [adapter.toJson]
  | .codecRead codec => .form "codec_read" [.text codec]
  | .field e name => .form "field" [e.toJson, .text name]
  | .getter e method name => .form "getter" [e.toJson, .text method, .text name]
  | .reflect e owner name t => .form "reflect" [e.toJson, owner.toJson, .text name, t.toJson]
  | .construct t args => .form "construct" [t.toJson, .arr (Expr.argsToJson args)]
  | .singleton t => .form "singleton" [t.toJson]
  | .classLoader t => .form "class_loader" [t.toJson]

def Expr.capacityToJson : Option Expr → Json
  | none => .null
  | some e => e.toJson

def Expr.argsToJson : List (String × Expr) → List Json
  | [] => []
  | (name, e) :: rest => .arr [.text name, e.toJson] :: Expr.argsToJson rest

end

/-- The argument of a constructor that a document describes. -/
def Expr.arg? (expr? : Json → Option Expr) : Json → Option (String × Expr)
  | .arr [name, e] => do return (← string? name, ← expr? e)
  | _ => none

/-- The expression that a document of limited depth describes. -/
def Expr.within? : (depth : Nat) → Json → Option Expr
  | 0, _ => none
  | depth + 1, j => do
    let expr? := Expr.within? depth
    let type? := JavaType.ofJson?
    match ← j.form? with
    | ("var", [name]) => return .var (← string? name)
    | ("null", []) => return .null
    | ("int", [.num literal]) => return .int (.ofInt (← literal.toInt?))
    | ("read", [op, loader]) => return .read (← Wire.Op.ofJson? op) (← nullable? string? loader)
    | ("size", [e]) => return .size (← expr? e)
    | ("length", [e]) => return .length (← expr? e)
    | ("index", [e, i]) => return .index (← expr? e) (← expr? i)
    | ("key_at", [e, i]) => return .keyAt (← expr? e) (← expr? i)
    | ("value_at", [e, i]) => return .valueAt (← expr? e) (← expr? i)
    | ("new_container", [kind, t, capacity]) =>
      return .newContainer (← ContainerKind.ofJson? kind) (← type? t) (← nullable? expr? capacity)
    | ("new_array", [t, e]) => return .newArray (← type? t) (← expr? e)
    | ("cast", [t, e]) => return .cast (← type? t) (← expr? e)
    | ("enum_value_of", [t, e]) => return .enumValueOf (← type? t) (← expr? e)
    | ("enum_name", [e]) => return .enumName (← expr? e)
    | ("read_nested", [companion]) => return .readNested (← string? companion)
    | ("adapter_read", [adapter]) => return .adapterRead (← AdapterRef.ofJson? adapter)
    | ("codec_read", [codec]) => return .codecRead (← string? codec)
    | ("field", [e, name]) => return .field (← expr? e) (← string? name)
    | ("getter", [e, method, name]) =>
      return .getter (← expr? e) (← string? method) (← string? name)
    | ("reflect", [e, owner, name, t]) =>
      return .reflect (← expr? e) (← type? owner) (← string? name) (← type? t)
    | ("construct", [t, args]) => return .construct (← type? t) (← list? (Expr.arg? expr?) args)
    | ("singleton", [t]) => return .singleton (← type? t)
    | ("class_loader", [t]) => return .classLoader (← type? t)
    | _ => none

/-- The expression that a document describes. -/
def Expr.ofJson? (j : Json) : Option Expr := Expr.within? j.depth j

/-! ## §3. Statements. -/

mutual

def Stmt.toJson : Stmt → Json
  | .declare name t e => .form "declare" [.text name, t.toJson, e.toJson]
  | .assign name e => .form "assign" [.text name, e.toJson]
  | .write op e => .form "write" [.text op.name, e.toJson]
  | .ifPresent body => .form "if_present" [.arr (Stmt.allToJson body)]
  | .ifNull e thens otherwise =>
    .form "if_null" [e.toJson, .arr (Stmt.allToJson thens), .arr (Stmt.allToJson otherwise)]
  | .forCount index count body =>
    .form "for" [.text index, count.toJson, .arr (Stmt.allToJson body)]
  | .forEach var t iterable body =>
    .form "for_each" [.text var, t.toJson, iterable.toJson, .arr (Stmt.allToJson body)]
  | .forEntries key keyType value valueType map body =>
    .form "for_entries" [.text key, keyType.toJson, .text value, valueType.toJson, map.toJson,
      .arr (Stmt.allToJson body)]
  | .add target e => .form "add" [.text target, e.toJson]
  | .put target key e => .form "put" [.text target, key.toJson, e.toJson]
  | .store array index e => .form "store" [.text array, index.toJson, e.toJson]
  | .writeNested companion e => .form "write_nested" [.text companion, e.toJson]
  | .adapterWrite adapter e => .form "adapter_write" [adapter.toJson, e.toJson]
  | .codecWrite codec e => .form "codec_write" [.text codec, e.toJson]
  | .setField target name e => .form "set_field" [.text target, .text name, e.toJson]
  | .callSetter target method name e =>
    .form "call_setter" [.text target, .text method, .text name, e.toJson]
  | .reflectSet target owner name e =>
    .form "reflect_set" [.text target, owner.toJson, .text name, e.toJson]
  | .ret e => .form "return" [e.toJson]

def Stmt.allToJson : List Stmt → List Json
  | [] => []
  | s :: rest => s.toJson :: Stmt.allToJson rest

end

/-- The statement that a document of limited depth describes. -/
def Stmt.within? : (depth : Nat) → Json → Option Stmt
  | 0, _ => none
  | depth + 1, j => do
    let expr? := Expr.ofJson?
    let type? := JavaType.ofJson?
    let body? := list? (Stmt.within? depth)
    match ← j.form? with
    | ("declare", [name, t, e]) => return .declare (← string? name) (← type? t) (← expr? e)
    | ("assign", [name, e]) => return .assign (← string? name) (← expr? e)
    | ("write", [op, e]) => return .write (← Wire.Op.ofJson? op) (← expr? e)
    | ("if_present", [body]) => return .ifPresent (← body? body)
    | ("if_null", [e, thens, otherwise]) =>
      return .ifNull (← expr? e) (← body? thens) (← body? otherwise)
    | ("for", [index, count, body]) =>
      return .forCount (← string? index) (← expr? count) (← body? body)
    | ("for_each", [var, t, e, body]) =>
      return .forEach (← string? var) (← type? t) (← expr? e) (← body? body)
    | ("for_entries", [key, keyType, value, valueType, map, body]) =>
      return .forEntries (← string? key) (← type? keyType) (← string? value) (← type? valueType)
        (← expr? map) (← body? body)
    | ("add", [target, e]) => return .add (← string? target) (← expr? e)
    | ("put", [target, key, e]) => return .put (← string? target) (← expr? key) (← expr? e)
    | ("store", [array, index, e]) => return .store (← string? array) (← expr? index) (← expr? e)
    | ("write_nested", [companion, e]) => return .writeNested (← string? companion) (← expr? e)
    | ("adapter_write", [adapter, e]) =>
      return .adapterWrite (← AdapterRef.ofJson? adapter) (← expr? e)
    | ("codec_write", [codec, e]) => return .codecWrite (← string? codec) (← expr? e)
    | ("set_field", [target, name, e]) =>
      return .setField (← string? target) (← string? name) (← expr? e)
    | ("call_setter", [target, method, name, e]) =>
      return .callSetter (← string? target) (← string? method) (← string? name) (← expr? e)
    | ("reflect_set", [target, owner, name, e]) =>
      return .reflectSet (← string? target) (← type? owner) (← string? name) (← expr? e)
    | ("return", [e]) => return .ret (← expr? e)
    | _ => none

/-- The statement that a document describes. -/
def Stmt.ofJson? (j : Json) : Option Stmt := Stmt.within? j.depth j

/-! ## §4. Companions. -/

def Procedure.toJson (p : Procedure) : Json :=
  .members [("value", Json.orNull .text p.value), ("body", .arr (Stmt.allToJson p.body))]

def Procedure.ofJson? (j : Json) : Option Procedure := do
  return {
    value := ← j.member? "value" >>= nullable? string?
    body := ← j.member? "body" >>= list? Stmt.ofJson? }

def DependencyArg.toJson : DependencyArg → Json
  | .adapter ref => .form "adapter" [ref.toJson]
  | .codec name => .form "codec" [.text name]
  | .token type => .form "class" [type.toJson]

def DependencyArg.ofJson? (j : Json) : Option DependencyArg := do
  match ← j.form? with
  | ("adapter", [ref]) => return .adapter (← AdapterRef.ofJson? ref)
  | ("codec", [name]) => return .codec (← string? name)
  | ("class", [type]) => return .token (← JavaType.ofJson? type)
  | _ => none

def AdapterField.toJson (f : AdapterField) : Json :=
  .members [("name", .text f.name), ("adapter", .text f.adapter),
    ("args", .arr (f.args.map JavaType.toJson)), ("deps", .arr (f.deps.map DependencyArg.toJson))]

def AdapterField.ofJson? (j : Json) : Option AdapterField := do
  return {
    name := ← j.member? "name" >>= string?
    adapter := ← j.member? "adapter" >>= string?
    args := ← j.member? "args" >>= list? JavaType.ofJson?
    deps := ← j.member? "deps" >>= list? DependencyArg.ofJson? }

def CodecDecl.toJson (c : CodecDecl) : Json :=
  .members [("name", .text c.name), ("type", c.type.toJson), ("read", c.read.toJson),
    ("write", c.write.toJson)]

def CodecDecl.ofJson? (j : Json) : Option CodecDecl := do
  return {
    name := ← j.member? "name" >>= string?
    type := ← j.member? "type" >>= JavaType.ofJson?
    read := ← j.member? "read" >>= Procedure.ofJson?
    write := ← j.member? "write" >>= Procedure.ofJson? }

def Companion.toJson (c : Companion) : Json :=
  .members [("package", .text c.package), ("name", .text c.name), ("class", c.type.toJson),
    ("adapters", .arr (c.adapters.map AdapterField.toJson)),
    ("codecs", .arr (c.codecs.map CodecDecl.toJson)), ("read", c.read.toJson),
    ("write", c.write.toJson), ("requires_class_loader", .bool c.requiresClassLoader),
    ("singleton", .bool c.singleton)]

def Companion.ofJson? (j : Json) : Option Companion := do
  return {
    package := ← j.member? "package" >>= string?
    name := ← j.member? "name" >>= string?
    type := ← j.member? "class" >>= JavaType.ofJson?
    adapters := ← j.member? "adapters" >>= list? AdapterField.ofJson?
    codecs := ← j.member? "codecs" >>= list? CodecDecl.ofJson?
    read := ← j.member? "read" >>= Procedure.ofJson?
    write := ← j.member? "write" >>= Procedure.ofJson?
    requiresClassLoader := ← j.member? "requires_class_loader" >>= bool?
    singleton := ← j.member? "singleton" >>= bool? }

end ParcelCodec
