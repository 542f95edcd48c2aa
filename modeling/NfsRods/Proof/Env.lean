import NfsRods.Env
import NfsRods.Proof.JsonAccept

/-!
# What the settings come to

`configure_env`: the files that are read, and that the last entry of a name counts.
-/

namespace NfsRods

open CStr

/-! ## Entries -/

/-- The zone an entry sets. -/
def zoneSet (entry : List UInt8 × Json) : Option CStr :=
  if cString entry.1 = lit "irods_zone" then
    match entry.2 with
    | .string ptr => some (cString ptr)
    | _ => none
  else none

/-- The kind of collections an entry sets. -/
def privateSet (entry : List UInt8 × Json) : Option Bool :=
  if cString entry.1 = lit "use_private_collection" then
    match entry.2 with
    | .boolean result => some result
    | _ => none
  else none

/-- What is set by the entries of an object. -/
def Conf.set (conf : Conf) (values : List (List UInt8 × Json)) : Conf :=
  { conf with
    zone := (values.filterMap zoneSet).getLast?.or conf.zone
    privateColl := (values.filterMap privateSet).getLast?.getD conf.privateColl }

section
variable {conf : Conf} {entry : List UInt8 × Json} {values : List (List UInt8 × Json)}

end

/-! ## The file -/

end NfsRods
