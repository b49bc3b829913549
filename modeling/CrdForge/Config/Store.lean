import CrdForge.Config.Encode
import CrdForge.Config.Validate
import CrdForge.Yaml.Write

/-! Configurations in files. -/
namespace CrdForge.Config

open Host (FileSystem)

/-- The configuration in a file, if it may be used. -/
def load (files : FileSystem) (name : String) : Except Fault Config := do
  read (← (files.read name).mapError (.file name))

/-- The text of a configuration. -/
def text (config : Config) : String := Yaml.write config.toJson

/-- Writes a configuration to a file. -/
def save (config : Config) (name : String) : ExceptT Fault (StateM FileSystem) Unit :=
  ExceptT.adapt (.file name) (Host.writeFile name config.text)

end CrdForge.Config
