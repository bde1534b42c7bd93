/-!
# Instances of the core library

Powers, sums, byte arrays, statements about the members of a list and the orders of texts and of
bytes have more than one instance where a larger library is in use.  The ones of the core library
are meant everywhere.
-/

attribute [instance (1100), default_instance 100000] instPowNat

attribute [instance (1100)] ByteArray.instDecidableEq List.decidableBAll

namespace CachePolicy

instance (priority := 1100) zeroNat : Zero Nat := ⟨0⟩

instance transLtText : Trans (fun a b : String => a < b) (fun a b : String => a < b)
    (fun a b : String => a < b) := ⟨String.lt_trans⟩

instance trichotomousLtText : Std.Trichotomous (fun a b : String => a < b) :=
  ⟨fun _ _ notBelow notAbove =>
    String.le_antisymm (String.not_lt.mp notAbove) (String.not_lt.mp notBelow)⟩

instance irreflLtByte : Std.Irrefl (fun a b : UInt8 => a < b) := ⟨UInt8.lt_irrefl⟩

instance transLtByte : Trans (fun a b : UInt8 => a < b) (fun a b : UInt8 => a < b)
    (fun a b : UInt8 => a < b) := ⟨UInt8.lt_trans⟩

instance trichotomousLtByte : Std.Trichotomous (fun a b : UInt8 => a < b) :=
  ⟨fun _ _ notBelow notAbove =>
    UInt8.le_antisymm (UInt8.not_lt.mp notAbove) (UInt8.not_lt.mp notBelow)⟩

end CachePolicy
