/-!
# Diagnostics

What a compilation finds wrong, tied to the element of the model it was found at: a class, a
field, a constructor parameter, or an adapter.
-/

namespace ParcelCodec

/-- The findings. -/
inductive Finding where
  -- what keeps a class from having a companion at all
  | dataClassOnNonClass
  | dataClassOnAnnotationType
  | dataClassOnAbstractClass
  | dataClassOnPrivateClass
  | dataClassOnNonStaticInnerClass
  | dataClassNotParcelable
  | manualImplementation
  | extendsGeneratedClass
  | noVisibleConstructor
  | noExposeAnnotations
  -- what keeps a field from being read, written or encoded
  | typeSyntaxError
  | fieldNotReadable
  | fieldNotWritable
  | unmatchedConstructorParameter
  | duplicateFieldName
  | fieldMissingCodec
  | wildcardInFieldType
  | wildcardLowerBound
  | rawTypeError
  | unknownTypeVariable
  | fieldTypeIsRecursive
  | fieldTypeIsIntersectionType
  -- what keeps an adapter from being registered
  | adapterMustBeClass
  | adapterIsAbstract
  | adapterMustBePublic
  | nestedAdapterMustBeStatic
  | adapterInvalidConstructor
  | adapterTypeArgumentHasRawType
  | adapterTypeArgumentHasWildcards
  | adapterIncompatibleTypeParameters
  | constructorParameterHasWildcard
  | rawTypeAdapterDependencyError
  deriving Repr, DecidableEq

namespace Finding

/-- The code of a finding in reports. -/
def code : Finding → String
  | .dataClassOnNonClass => "DATA_CLASS_ON_NON_CLASS"
  | .dataClassOnAnnotationType => "DATA_CLASS_ON_ANNOTATION"
  | .dataClassOnAbstractClass => "DATA_CLASS_ON_ABSTRACT_CLASS"
  | .dataClassOnPrivateClass => "DATA_CLASS_ON_PRIVATE_CLASS"
  | .dataClassOnNonStaticInnerClass => "DATA_CLASS_ON_NON_STATIC_INNER_CLASS"
  | .dataClassNotParcelable => "DATA_CLASS_NOT_PARCELABLE"
  | .manualImplementation => "MANUAL_IMPLEMENTATION"
  | .extendsGeneratedClass => "EXTENDS_GENERATED_CLASS"
  | .noVisibleConstructor => "NO_VISIBLE_CONSTRUCTOR"
  | .noExposeAnnotations => "NO_EXPOSE_ANNOTATIONS"
  | .typeSyntaxError => "TYPE_SYNTAX_ERROR"
  | .fieldNotReadable => "FIELD_NOT_READABLE"
  | .fieldNotWritable => "FIELD_NOT_WRITABLE"
  | .unmatchedConstructorParameter => "UNMATCHED_CONSTRUCTOR_PARAMETER"
  | .duplicateFieldName => "DUPLICATE_FIELD_NAME"
  | .fieldMissingCodec => "FIELD_MISSING_CODEC"
  | .wildcardInFieldType => "WILDCARD_IN_FIELD_TYPE"
  | .wildcardLowerBound => "WILDCARD_LOWER_BOUND"
  | .rawTypeError => "RAW_TYPE_ERROR"
  | .unknownTypeVariable => "UNKNOWN_TYPE_VARIABLE"
  | .fieldTypeIsRecursive => "FIELD_TYPE_IS_RECURSIVE"
  | .fieldTypeIsIntersectionType => "FIELD_TYPE_IS_INTERSECTION_TYPE"
  | .adapterMustBeClass => "ADAPTER_MUST_BE_CLASS"
  | .adapterIsAbstract => "ADAPTER_IS_ABSTRACT"
  | .adapterMustBePublic => "ADAPTER_MUST_BE_PUBLIC"
  | .nestedAdapterMustBeStatic => "NESTED_ADAPTER_MUST_BE_STATIC"
  | .adapterInvalidConstructor => "ADAPTER_INVALID_CONSTRUCTOR"
  | .adapterTypeArgumentHasRawType => "ADAPTER_TYPE_ARGUMENT_HAS_RAW_TYPE"
  | .adapterTypeArgumentHasWildcards => "ADAPTER_TYPE_ARGUMENT_HAS_WILDCARDS"
  | .adapterIncompatibleTypeParameters => "ADAPTER_INCOMPATIBLE_TYPE_PARAMETERS"
  | .constructorParameterHasWildcard => "CONSTRUCTOR_PARAMETER_HAS_WILDCARD"
  | .rawTypeAdapterDependencyError => "RAW_TYPE_ADAPTER_DEPENDENCY_ERROR"

/-- Whether the finding is about an adapter. -/
def isAboutAdapter : Finding → Bool
  | .adapterMustBeClass | .adapterIsAbstract | .adapterMustBePublic | .nestedAdapterMustBeStatic
  | .adapterInvalidConstructor | .adapterTypeArgumentHasRawType
  | .adapterTypeArgumentHasWildcards | .adapterIncompatibleTypeParameters
  | .constructorParameterHasWildcard | .rawTypeAdapterDependencyError => true
  | _ => false

end Finding

/-- A finding in words, not yet tied to an element. -/
structure Unresolved where
  finding : Finding
  message : String
  deriving Repr, DecidableEq

/-- A finding tied to an element of the model. -/
structure Diagnostic where
  finding : Finding
  /-- The element, by its qualified name. -/
  element : String
  message : String
  deriving Repr, DecidableEq

/-- Ties a finding to an element. -/
def Unresolved.on (u : Unresolved) (element : String) : Diagnostic :=
  ⟨u.finding, element, u.message⟩

/-- The one-line form of a diagnostic. -/
def Diagnostic.display (d : Diagnostic) : String :=
  d.element ++ ": " ++ d.message ++ " [" ++ d.finding.code ++ "]"

/-- The one-line summary of several diagnostics. -/
def Diagnostic.summary (ds : List Diagnostic) : String :=
  toString ds.length ++ " diagnostic(s), first: " ++ ((ds.head?.map display).getD "")

end ParcelCodec
