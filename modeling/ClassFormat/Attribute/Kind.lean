namespace ClassFormat

/-!
# The attributes that have a layout of their own

An attribute is recognised by its name, which is a text in the constant pool.
Thirty names have a known layout; several of them share one, so `AttributeKind`
groups the names by layout.

* `AttributeKind.ofName?_eq_some_iff` says that each kind is found under its own
  name and under no other.
-/

/-- Attributes whose payload is one reference into the constant pool. -/
inductive ReferenceRole where
  | constantValue
  | signature
  | sourceFile
  | moduleMainClass
  | nestHost
  deriving DecidableEq

/-- Attributes whose payload is a counted list of references. -/
inductive ReferenceListRole where
  | exceptions
  | modulePackages
  | nestMembers
  | permittedSubclasses
  deriving DecidableEq

/-- Attributes that say all they have to say by being there. -/
inductive Marker where
  | synthetic
  | deprecated
  deriving DecidableEq

/-- The two tables that describe local variables: by descriptor, and by generic
signature. -/
inductive VariableTable where
  | descriptors
  | signatures
  deriving DecidableEq

/-- Whether annotations can be seen by reflection while the program runs. -/
inductive Visibility where
  | visible
  | invisible
  deriving DecidableEq

/-- An attribute layout, told apart by the name that selects it. -/
inductive AttributeKind where
  | reference (role : ReferenceRole)
  | references (role : ReferenceListRole)
  | marker (marker : Marker)
  | code
  | stackMapTable
  | innerClasses
  | enclosingMethod
  | sourceDebugExtension
  | lineNumbers
  | localVariables (table : VariableTable)
  | annotations (visibility : Visibility)
  | parameterAnnotations (visibility : Visibility)
  | typeAnnotations (visibility : Visibility)
  | annotationDefault
  | bootstrapMethods
  | methodParameters
  | module
  | record
  deriving DecidableEq

namespace AttributeKind

/-- Every kind. -/
def all : List AttributeKind :=
  [reference .constantValue, code, stackMapTable, references .exceptions,
    innerClasses, enclosingMethod, marker .synthetic, reference .signature,
    reference .sourceFile, sourceDebugExtension, lineNumbers,
    localVariables .descriptors, localVariables .signatures,
    marker .deprecated, annotations .visible, annotations .invisible,
    parameterAnnotations .visible, parameterAnnotations .invisible,
    typeAnnotations .visible, typeAnnotations .invisible, annotationDefault,
    bootstrapMethods, methodParameters, module, references .modulePackages,
    reference .moduleMainClass, reference .nestHost, references .nestMembers,
    record, references .permittedSubclasses]

/-- The name that selects the layout. -/
def name : AttributeKind → String
  | reference .constantValue => "ConstantValue"
  | reference .signature => "Signature"
  | reference .sourceFile => "SourceFile"
  | reference .moduleMainClass => "ModuleMainClass"
  | reference .nestHost => "NestHost"
  | references .exceptions => "Exceptions"
  | references .modulePackages => "ModulePackages"
  | references .nestMembers => "NestMembers"
  | references .permittedSubclasses => "PermittedSubclasses"
  | marker .synthetic => "Synthetic"
  | marker .deprecated => "Deprecated"
  | code => "Code"
  | stackMapTable => "StackMapTable"
  | innerClasses => "InnerClasses"
  | enclosingMethod => "EnclosingMethod"
  | sourceDebugExtension => "SourceDebugExtension"
  | lineNumbers => "LineNumberTable"
  | localVariables .descriptors => "LocalVariableTable"
  | localVariables .signatures => "LocalVariableTypeTable"
  | annotations .visible => "RuntimeVisibleAnnotations"
  | annotations .invisible => "RuntimeInvisibleAnnotations"
  | parameterAnnotations .visible => "RuntimeVisibleParameterAnnotations"
  | parameterAnnotations .invisible => "RuntimeInvisibleParameterAnnotations"
  | typeAnnotations .visible => "RuntimeVisibleTypeAnnotations"
  | typeAnnotations .invisible => "RuntimeInvisibleTypeAnnotations"
  | annotationDefault => "AnnotationDefault"
  | bootstrapMethods => "BootstrapMethods"
  | methodParameters => "MethodParameters"
  | module => "Module"
  | record => "Record"

/-- The kind that goes by a name, if one does. -/
def ofName? (text : String) : Option AttributeKind :=
  all.find? fun kind => kind.name == text

theorem ofName?_name (kind : AttributeKind) : ofName? kind.name = some kind := by
  rcases kind with ⟨_ | _⟩ | ⟨_ | _⟩ | ⟨_ | _⟩ | _ | _ | _ | _ | _ | _ |
    ⟨_ | _⟩ | ⟨_ | _⟩ | ⟨_ | _⟩ | ⟨_ | _⟩ | _ | _ | _ | _ | _ <;> rfl

/-- Each kind goes by exactly one name. -/
theorem ofName?_eq_some_iff {text : String} {kind : AttributeKind} :
    ofName? text = some kind ↔ kind.name = text := by
  constructor
  · intro hFound
    simpa using List.find?_some hFound
  · rintro rfl
    exact ofName?_name kind

end AttributeKind

end ClassFormat
