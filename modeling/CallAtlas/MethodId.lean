import CallAtlas.Text.Split

/-!
Method identifiers: the dotted name of the declaring type, a dot and the member name. Overloads
share one.
-/

namespace CallAtlas

def dotted (internalName : String) : String :=
  String.ofList (internalName.toList.map fun c => if c = '/' then '.' else c)

def descriptorName (descriptor : String) : String :=
  match descriptor.toList with
  | 'L' :: rest =>
    if rest.getLast? = some ';' then dotted (String.ofList rest.dropLast) else descriptor
  | _ => descriptor

def simpleName (name : String) : String :=
  String.ofList (Text.afterLast '.' name.toList)

def packageName (name : String) : String :=
  String.ofList (Text.beforeLast '.' name.toList)

abbrev MethodId := String

namespace MethodId

def ofOwner (owner name : String) : MethodId := dotted owner ++ "." ++ name

def owner (id : MethodId) : String := packageName id

def member (id : MethodId) : String := simpleName id

def isExcluded (prefixes : List String) (id : MethodId) : Bool := Text.startsWithAny prefixes id

def platformPrefixes : List String := ["java.", "javax.", "jdk.", "sun."]

end MethodId

end CallAtlas
