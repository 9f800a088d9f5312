import DartModels.Dart.ClassFile
import DartModels.Naming.Identifier

/-! # Enumeration files

An enumeration decodes each of its literals to a member and everything else to the sentinel. It
encodes a member by its name or, on demand, by its literal.
-/

namespace DartModels.Dart

open Model

/-- The type of an encoded member: only strings unless literals are written out. -/
def encodedTypeText (wire : Bool) (e : Enumeration) : String :=
  if !wire || e.members.all fun m => m.literal.isString then "String" else dynamicText

def wireLines (e : Enumeration) : List String :=
  e.members.map fun m => s!"    if (this == {e.name}.{m.name}) return {literal m.literal};"

def memberTests (e : Enumeration) : List String :=
  e.members.map fun m => s!"    if (raw == {literal m.literal}) return {e.name}.{m.name};"

def enumLines (wire : Bool) (e : Enumeration) : List String :=
  [s!"enum {e.name} \x7b"] ++
    e.members.map (fun m => s!"  {m.name},") ++
    [s!"  {Naming.sentinel};", "", s!"  {encodedTypeText wire e} toMap() \x7b"] ++
    (if wire then wireLines e else []) ++
    ["    return name;", "  \x7d", "",
     s!"  factory {e.name}.fromMap(dynamic raw) \x7b"] ++
    memberTests e ++
    [s!"    return {e.name}.{Naming.sentinel};", "  \x7d", "\x7d"]

def enumFile (o : Options) (comment : String) (e : Enumeration) : String :=
  fileText (commentLines comment) (enumLines o.wireValues.holds e)

end DartModels.Dart
