import NfsRods.Json
import NfsRods.World

/-!
# The settings of the daemon

`configureEnv` of `utils.c`, which `main` calls first: the zone and the kind of collections come
from `.nfsrods-config.json` in the home directory.
-/

namespace NfsRods

open CStr

/-- The C string at bytes that end with a NUL. -/
def cString (bytes : List UInt8) : CStr := bytes.takeWhile (· != 0)

end NfsRods
