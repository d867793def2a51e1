import Placement.Operator.Parsing
import Placement.Proofs.Text.Decimal

namespace Placement

variable {P : Client}

/-- There is no `dst` text, or it is a numeral for the number of the node's device. -/
def NodeAttrs.DestinationFits (attrs : NodeAttrs P) : Prop :=
  attrs.dict["dst"]? = none ∨
    ∃ text, attrs.dict["dst"]? = some text ∧
      Text.Decimal.Numeral text.toList attrs.device.id.toInt

structure CopyParsed (attrs : NodeAttrs P) (parsing : Parsing P) : Prop where
  accepts : parsing.verdict = .ok () ↔ attrs.DestinationFits
  accepted : parsing.verdict = .ok () →
    parsing.attrs = { attrs with payload := some (.copyTo attrs.device) } ∧
      Parsing.deviceCopy parsing.attrs = parsing
  rejected : ∀ error, parsing.verdict = .error error →
    parsing.attrs = attrs ∧ ∃ message, error = .invalidAttr deviceCopyName attrs.name message
  decimal : ∀ d : Device, attrs.dict["dst"]? = some (Text.Decimal.write d.id.toInt) →
    (parsing.verdict = .ok () ↔ attrs.device = d)

namespace NodeAttrs

variable {attrs : NodeAttrs P}

theorem destinationFits_iff_readInt32? {text : String} (listed : attrs.dict["dst"]? = some text) :
    attrs.DestinationFits ↔ Text.Decimal.readInt32? text = some attrs.device.id := by
  rw [Text.Decimal.readInt32?_eq_some_iff]
  constructor
  · rintro (absent | ⟨same, listed', numeral⟩)
    · cases listed.symm.trans absent
    · cases listed.symm.trans listed'
      exact numeral
  · exact fun numeral => .inr ⟨text, listed, numeral⟩

theorem destinationFits_payload (payload : Option (Payload P)) :
    { attrs with payload := payload }.DestinationFits ↔ attrs.DestinationFits := Iff.rfl

/-- A numeral that is written for a device fits on this device and on no other. -/
theorem destinationFits_write {d : Device}
    (listed : attrs.dict["dst"]? = some (Text.Decimal.write d.id.toInt)) :
    attrs.DestinationFits ↔ attrs.device = d := by
  rw [destinationFits_iff_readInt32? listed, Text.Decimal.readInt32?_write, Option.some.injEq]
  constructor
  · exact fun same => congrArg Device.mk same.symm
  · exact fun same => same ▸ rfl

end NodeAttrs

namespace Parsing

variable {attrs : NodeAttrs P}

theorem deviceCopy_of_fits (fits : attrs.DestinationFits) :
    deviceCopy attrs = accept { attrs with payload := some (.copyTo attrs.device) } := by
  unfold deviceCopy
  cases listed : attrs.dict["dst"]? with
  | none => rfl
  | some text =>
    have read := (NodeAttrs.destinationFits_iff_readInt32? listed).mp fits
    simp only [read, ↓reduceIte]

theorem deviceCopy_of_misfit (misfit : ¬ attrs.DestinationFits) :
    ∃ message, deviceCopy attrs =
      reject attrs (.invalidAttr deviceCopyName attrs.name message) := by
  unfold deviceCopy
  cases listed : attrs.dict["dst"]? with
  | none => exact absurd (.inl listed) misfit
  | some text =>
    rw [NodeAttrs.destinationFits_iff_readInt32? listed] at misfit
    cases read : Text.Decimal.readInt32? text with
    | none =>
      simp only [read]
      exact ⟨_, rfl⟩
    | some id =>
      have other : Device.mk id ≠ attrs.device := by
        intro same
        exact misfit (by rw [read, ← same])
      simp only [read, if_neg other]
      exact ⟨_, rfl⟩

theorem verdict_deviceCopy_iff (attrs : NodeAttrs P) :
    (deviceCopy attrs).verdict = .ok () ↔ attrs.DestinationFits := by
  constructor
  · intro accepted
    by_contra misfit
    obtain ⟨message, same⟩ := deviceCopy_of_misfit misfit
    rw [same] at accepted
    cases accepted
  · intro fits
    rw [deviceCopy_of_fits fits]
    rfl

/-- The parser of the copy operator accepts exactly the `dst` texts that name the node's device,
and leaves attributes that it rejects as they were. -/
theorem deviceCopy_exact (attrs : NodeAttrs P) : CopyParsed attrs (deviceCopy attrs) := by
  constructor
  · exact verdict_deviceCopy_iff attrs
  · intro accepted
    have fits := (verdict_deviceCopy_iff attrs).mp accepted
    rw [deviceCopy_of_fits fits]
    refine ⟨rfl, ?_⟩
    exact deviceCopy_of_fits ((NodeAttrs.destinationFits_payload _).mpr fits)
  · intro error failed
    have misfit : ¬ attrs.DestinationFits := by
      rw [← verdict_deviceCopy_iff, failed]
      nofun
    obtain ⟨message, same⟩ := deviceCopy_of_misfit misfit
    rw [same] at failed ⊢
    cases failed
    exact ⟨rfl, message, rfl⟩
  · intro d listed
    rw [verdict_deviceCopy_iff, NodeAttrs.destinationFits_write listed]

/-- A copy to the device of the smallest number, with a `dst` text of more digits than needed and
a payload from before. -/
def paddedAttrs (device : Device) : NodeAttrs .plain where
  name := "copy"
  device := device
  dict := Std.ExtTreeMap.empty.insert "dst" "-002147483648"
  payload := some (.value ⟨.bool, true⟩)

theorem deviceCopy_exact_padded :
    ((deviceCopy (paddedAttrs ⟨Int32.minValue⟩)).verdict = .ok () ∧
      (deviceCopy (paddedAttrs ⟨Int32.minValue⟩)).attrs.payload =
        some (.copyTo ⟨Int32.minValue⟩)) ∧
    (∃ error, (deviceCopy (paddedAttrs ⟨0⟩)).verdict = .error error) ∧
      (deviceCopy (paddedAttrs ⟨0⟩)).attrs = paddedAttrs ⟨0⟩ := by
  have listed : ∀ device, (paddedAttrs device).dict["dst"]? = some "-002147483648" := by
    intro device
    simp [paddedAttrs]
  have fits : ∀ device, (paddedAttrs device).DestinationFits ↔
      some Int32.minValue = some device.id := by
    intro device
    rw [NodeAttrs.destinationFits_iff_readInt32? (listed device)]
    have read : Text.Decimal.readInt32? "-002147483648" = some Int32.minValue := by decide +kernel
    rw [read]
    rfl
  have near := deviceCopy_exact (paddedAttrs ⟨Int32.minValue⟩)
  have far := deviceCopy_exact (paddedAttrs ⟨0⟩)
  refine ⟨?_, ?_⟩
  · have accepted := near.accepts.mpr ((fits _).mpr rfl)
    exact ⟨accepted, by rw [(near.accepted accepted).1]; rfl⟩
  · cases verdict : (deviceCopy (paddedAttrs ⟨0⟩)).verdict with
    | ok accepted => exact absurd ((fits _).mp (far.accepts.mp verdict)) (by decide)
    | error error => exact ⟨⟨error, rfl⟩, (far.rejected error verdict).1⟩

end Parsing
end Placement
