/-
The catalog of families, in the order in which they are listed.
-/
import ModemLink.Family.Ble
import ModemLink.Family.Cellular
import ModemLink.Family.Lora
import ModemLink.Family.Wifi

set_option autoImplicit false

namespace ModemLink.Family

/-- Every family. -/
def all : List Family := [Wifi.family, Ble.family, Lora.family, Cellular.family]

/-- The family with this short name, in either case. -/
def find? (id : Text) : Option Family := all.find? fun f => Text.equalFolded f.id id

end ModemLink.Family
