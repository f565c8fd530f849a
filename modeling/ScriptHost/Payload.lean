import ScriptHost.SearchPath

/-!
# What a run is given
-/
namespace ScriptHost

/-- A script and the directories its modules are searched in. A run works on its own copy. Mirrors
`ScriptPayload`. -/
structure Payload where
  source : ByteArray := .empty
  searchDirs : List String := []
  deriving Inhabited

/-- The directories as templates before the standard search path. Mirrors
`ScriptPayload.package_path_prefix`. -/
def Payload.pathPrefix (p : Payload) : String := SearchPath.templates p.searchDirs

end ScriptHost
