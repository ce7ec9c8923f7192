import DeviceScope.Config.Form
import DeviceScope.Disk.Basic

/-!
# Configuration files

A configuration file holds the document of a configuration in UTF-8.
-/

namespace DeviceScope.Config

def load (disk : Disk) (path : Path) : Except ConfigError Config :=
  match disk.read path with
  | .error _ => .error (.unreadable path.text ioDetail)
  | .ok bytes =>
    match Utf8.decode? bytes with
    | none => .error (.unreadable path.text ioDetail)
    | some document => ofToml (String.ofList document)

end DeviceScope.Config
