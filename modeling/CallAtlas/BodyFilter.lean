import CallAtlas.ClassFile.CompiledType
import CallAtlas.Text.Uppercase

/-!
Which method bodies are noise: generated accessors and builders, and the methods of service
interfaces.
-/

namespace CallAtlas

open ClassFile

def generatedMarkers : List String := ["Data", "Getter", "Setter", "Builder", "Generated", "Value"]

structure BodyFilter where
  typeName : String
  isInterface : Bool := false
  namesService : Bool := false
  hasGeneratedAccessors : Bool := false
  deriving DecidableEq, Repr

def hasProperty (word : String) (name : String) : Bool :=
  word.toList.isPrefixOf name.toList && ((name.toList[word.length]?).map Text.isUpper).getD false

def endsWith (ending : String) (s : String) : Bool := ending.toList.isSuffixOf s.toList

def returnsVoid (descriptor : String) : Bool := endsWith ")V" descriptor

def isGetter (name descriptor : String) : Bool :=
  if hasProperty "get" name then "()".toList.isPrefixOf descriptor.toList && !returnsVoid descriptor
  else hasProperty "is" name && descriptor == "()Z"

def isSetter (name descriptor : String) : Bool := hasProperty "set" name && returnsVoid descriptor

def isBuilder (name descriptor : String) : Bool :=
  name == "builder" || name == "toBuilder" ||
    (Text.occursIn "Builder".toList descriptor.toList && !returnsVoid descriptor)

namespace BodyFilter

/-- No letter outside ASCII has one of the letters of `service` as its lower-case form, so that
ASCII decides. -/
def mentionsService (name : String) : Bool :=
  Text.occursIn "service".toList (name.toList.map Char.toLower)

def ofType (type : CompiledType) : BodyFilter :=
  { typeName := type.name
    isInterface := type.isInterface
    namesService := mentionsService type.name
    hasGeneratedAccessors := type.annotations.any fun use => use.simpleName ∈ generatedMarkers }

def skips (filter : BodyFilter) (name descriptor : String) : Bool :=
  if filter.namesService && filter.isInterface then true
  else filter.hasGeneratedAccessors &&
    (isGetter name descriptor || isSetter name descriptor || isBuilder name descriptor)

end BodyFilter

end CallAtlas
