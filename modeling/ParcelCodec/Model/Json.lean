import ParcelCodec.Model
import ParcelCodec.Json.Reader
import ParcelCodec.Json.Record

/-!
# Models in JSON

Each declaration is a record.  Every field of a record has a default but the name and the type of
a field and of a parameter; a field is nullable unless it says otherwise.
-/

namespace ParcelCodec

open Json (record? field required string? bool? list? nullable? word?)

/-! ## §1. Reading. -/

namespace TypeParam

def ofJson? (j : Json) : Option TypeParam := do
  let fields ← record? ["name", "bounds"] j
  return {
    name := ← field string? "" fields "name"
    bounds := ← field (list? string?) [] fields "bounds" }

end TypeParam

namespace FieldDecl

def ofJson? (j : Json) : Option FieldDecl := do
  let fields ← record? ["name", "type", "modifiers", "annotations", "nullable", "accessor"] j
  return {
    name := ← required string? fields "name"
    type := ← required string? fields "type"
    modifiers := ← field (list? (word? Modifier.words)) [] fields "modifiers"
    annotations := ← field (list? string?) [] fields "annotations"
    nullable := ← field bool? true fields "nullable"
    accessor := ← field (nullable? string?) none fields "accessor" }

end FieldDecl

namespace ParamDecl

def ofJson? (j : Json) : Option ParamDecl := do
  let fields ← record? ["name", "type"] j
  return {
    name := ← required string? fields "name"
    type := ← required string? fields "type" }

end ParamDecl

namespace ConstructorDecl

def ofJson? (j : Json) : Option ConstructorDecl := do
  let fields ← record? ["modifiers", "params"] j
  return {
    modifiers := ← field (list? (word? Modifier.words)) [] fields "modifiers"
    params := ← field (list? ParamDecl.ofJson?) [] fields "params" }

end ConstructorDecl

namespace MethodDecl

def ofJson? (j : Json) : Option MethodDecl := do
  let fields ← record? ["name", "modifiers", "params", "returns"] j
  return {
    name := ← field string? "" fields "name"
    modifiers := ← field (list? (word? Modifier.words)) [] fields "modifiers"
    params := ← field (list? ParamDecl.ofJson?) [] fields "params"
    returns := ← field (nullable? string?) none fields "returns" }

end MethodDecl

namespace TypeDecl

def ofJson? (j : Json) : Option TypeDecl := do
  let fields ← record? ["package", "name", "kind", "modifiers", "type_params", "superclass",
    "interfaces", "annotations", "data_class", "fields", "constructors", "methods"] j
  return {
    package := ← field string? "" fields "package"
    name := ← field string? "" fields "name"
    kind := ← field (word? DeclKind.words) .classType fields "kind"
    modifiers := ← field (list? (word? Modifier.words)) [] fields "modifiers"
    typeParams := ← field (list? TypeParam.ofJson?) [] fields "type_params"
    superclass := ← field (nullable? string?) none fields "superclass"
    interfaces := ← field (list? string?) [] fields "interfaces"
    annotations := ← field (list? string?) [] fields "annotations"
    dataClass := ← field bool? false fields "data_class"
    fields := ← field (list? FieldDecl.ofJson?) [] fields "fields"
    constructors := ← field (list? ConstructorDecl.ofJson?) [] fields "constructors"
    methods := ← field (list? MethodDecl.ofJson?) [] fields "methods" }

end TypeDecl

namespace AdapterDecl

def ofJson? (j : Json) : Option AdapterDecl := do
  let fields ← record? ["package", "name", "kind", "modifiers", "type_params", "handles",
    "priority", "null_safe", "singleton", "constructor"] j
  return {
    package := ← field string? "" fields "package"
    name := ← field string? "" fields "name"
    kind := ← field (word? DeclKind.words) .classType fields "kind"
    modifiers := ← field (list? (word? Modifier.words)) [] fields "modifiers"
    typeParams := ← field (list? TypeParam.ofJson?) [] fields "type_params"
    handles := ← field string? "" fields "handles"
    priority := ← field (word? Priority.words) .default fields "priority"
    nullSafe := ← field bool? false fields "null_safe"
    singleton := ← field bool? false fields "singleton"
    constructor := ← field (list? ParamDecl.ofJson?) [] fields "constructor" }

end AdapterDecl

namespace Model

/-- The model that a document describes. -/
def ofJson? (j : Json) : Option Model := do
  let fields ← record? ["types", "adapters"] j
  return {
    types := ← field (list? TypeDecl.ofJson?) [] fields "types"
    adapters := ← field (list? AdapterDecl.ofJson?) [] fields "adapters" }

/-- The model that a text describes. -/
def parse? (text : String) : Option Model := Json.parse? text >>= ofJson?

end Model

/-! ## §2. Writing. -/

/-- A list of texts. -/
def textsToJson (texts : List String) : Json := .arr (texts.map .text)

/-- A text or null. -/
def textOrNullToJson (text : Option String) : Json := (text.map Json.text).getD .null

/-- The word for a value out of a fixed list. -/
def wordToJson [BEq α] (words : List (String × α)) (value : α) : Json :=
  .text (((words.find? (·.2 == value)).map (·.1)).getD "")

/-- The words for modifiers. -/
def modifiersToJson (modifiers : List Modifier) : Json :=
  .arr (modifiers.map (wordToJson Modifier.words))

def TypeParam.toJson (p : TypeParam) : Json :=
  .members [("name", .text p.name), ("bounds", textsToJson p.bounds)]

def FieldDecl.toJson (f : FieldDecl) : Json :=
  .members [("name", .text f.name), ("type", .text f.type),
    ("modifiers", modifiersToJson f.modifiers), ("annotations", textsToJson f.annotations),
    ("nullable", .bool f.nullable), ("accessor", textOrNullToJson f.accessor)]

def ParamDecl.toJson (p : ParamDecl) : Json :=
  .members [("name", .text p.name), ("type", .text p.type)]

def ConstructorDecl.toJson (c : ConstructorDecl) : Json :=
  .members [("modifiers", modifiersToJson c.modifiers),
    ("params", .arr (c.params.map ParamDecl.toJson))]

def MethodDecl.toJson (m : MethodDecl) : Json :=
  .members [("name", .text m.name), ("modifiers", modifiersToJson m.modifiers),
    ("params", .arr (m.params.map ParamDecl.toJson)), ("returns", textOrNullToJson m.returns)]

def TypeDecl.toJson (d : TypeDecl) : Json :=
  .members [("package", .text d.package), ("name", .text d.name),
    ("kind", wordToJson DeclKind.words d.kind), ("modifiers", modifiersToJson d.modifiers),
    ("type_params", .arr (d.typeParams.map TypeParam.toJson)),
    ("superclass", textOrNullToJson d.superclass), ("interfaces", textsToJson d.interfaces),
    ("annotations", textsToJson d.annotations), ("data_class", .bool d.dataClass),
    ("fields", .arr (d.fields.map FieldDecl.toJson)),
    ("constructors", .arr (d.constructors.map ConstructorDecl.toJson)),
    ("methods", .arr (d.methods.map MethodDecl.toJson))]

def AdapterDecl.toJson (d : AdapterDecl) : Json :=
  .members [("package", .text d.package), ("name", .text d.name),
    ("kind", wordToJson DeclKind.words d.kind), ("modifiers", modifiersToJson d.modifiers),
    ("type_params", .arr (d.typeParams.map TypeParam.toJson)), ("handles", .text d.handles),
    ("priority", wordToJson Priority.words d.priority), ("null_safe", .bool d.nullSafe),
    ("singleton", .bool d.singleton), ("constructor", .arr (d.constructor.map ParamDecl.toJson))]

/-- A model with every field of every record written out. -/
def Model.toJson (m : Model) : Json :=
  .members [("types", .arr (m.types.map TypeDecl.toJson)),
    ("adapters", .arr (m.adapters.map AdapterDecl.toJson))]

end ParcelCodec
