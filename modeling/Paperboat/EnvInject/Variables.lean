import Paperboat.EnvironmentE2EE.Scope

/-! The host's own check of the variables it is about to serve. -/

namespace Paperboat.EnvInject

open EnvironmentE2EE

def maximumEnvironmentBytes : Nat := 256 * 1024

def portableName (name : String) : Bool :=
  decide (name.utf8ByteSize ≤ maximumNameBytes) && variablePattern name

def validName (name : String) : Bool := portableName name && !reservedName name

def validateVariables (values : Values) : Bool :=
  decide (values.length ≤ maximumVariables) && decide (valuesTotal values ≤ maximumEnvironmentBytes) &&
    decide (values.map fun entry => toUpper entry.1).Nodup && values.all (fun entry => validName entry.1) &&
    values.all fun entry => validValue entry.2

/-- Whatever can be encoded as one scope is a valid environment. -/
theorem validateVariables_of_encodable {values : Values} (h : Encodable values) : validateVariables values = true := by
  have htotal : valuesTotal values ≤ maximumEnvironmentBytes := (valuesTotal_le_plaintextSize values).trans h.size
  have hnames : values.all (fun entry => validName entry.1) = true := List.all_eq_true.mpr h.names
  simp [validateVariables, h.length, htotal, h.folds, hnames, List.all_eq_true.mpr h.contents, decide_true]

theorem encodable_of_mergeScopes {global machine merged : Values} (h : mergeScopes global machine = some merged) :
    Encodable merged := by
  simp only [mergeScopes] at h
  split at h
  · split at h
    · cases h
    · exact encodable_of_encodeScope h
  · cases h

end Paperboat.EnvInject
