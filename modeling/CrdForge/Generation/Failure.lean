import CrdForge.Config.Validate
import CrdForge.OpenApi.Load
import CrdForge.Pipeline.PluginSet

/-! Why there is no definition of a resource. -/
namespace CrdForge.Generation

inductive Failure where
  | config (fault : Config.Fault)
  | unresolved (reason : Pipeline.Unresolved)
  | duplicateMajorVersion (kind majorVersion : String)
  | unknownSet (kind set : String)
  | noDefaultSet
  | unknownDocument (name : String)
  | unloaded (name : String) (fault : OpenApi.LoadFault)
  | plugin (staged : Pipeline.StagedFailure)

def Failure.message : Failure → String
  | .config fault => fault.message
  | .unresolved reason => "failed to resolve plugin sets: " ++ reason.message
  | .duplicateMajorVersion kind majorVersion =>
    "CRD " ++ kind ++ ": major version " ++ majorVersion ++ " is mapped more than once"
  | .unknownSet kind set => "CRD " ++ kind ++ ": plugin set " ++ set ++ " is not declared"
  | .noDefaultSet => "no default plugin set"
  | .unknownDocument name => "OpenAPI definition " ++ name ++ " is not declared"
  | .unloaded name fault => "failed to load OpenAPI definition " ++ name ++ ": " ++ fault.message
  | .plugin staged => staged.message

end CrdForge.Generation
