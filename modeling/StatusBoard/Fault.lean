import StatusBoard.Binary64.Writer
import StatusBoard.Severity.Basic

/-!
# Faults

Why a request is rejected, and why the store gives no answer. Each cause has its own
constructor; the wording is in the `message` functions alone.

## Main definitions

* `RecordFault` — what is wrong with a cached record
* `Fault` — why a request is rejected
* `Outage` — why the store gives no answer
* `Failure` — either of the two
-/

namespace StatusBoard

/-- What is wrong with a cached record. -/
inductive RecordFault where
  /-- A sample record lacks a field. -/
  | missingField (key : String)
  /-- The name of a sample does not end in a metric. -/
  | noMetricPart (name : String)
  /-- The status of a sample is no severity. -/
  | unknownSeverity (text : String)
  /-- The tags of a sample are not an array of strings. -/
  | sampleTags (name : String)
  /-- The time of a sample is no time. -/
  | sampleTime (name : String)
  /-- The tags of a metric are not an array of strings. -/
  | metricTags
  /-- The label of a marker has not the form of one. -/
  | markerLabel (label : String)
deriving DecidableEq

/-- Why a request is rejected. -/
inductive Fault where
  /-- The text names no status. -/
  | unknownStatus (text : String)
  /-- The text names no severity. -/
  | unknownSeverity (text : String)
  /-- A filter lists both included and excluded values. -/
  | mixedFilter (text : String)
  /-- A depth setting is not an unsigned integer. -/
  | depthSetting (key text : String)
  /-- A bound of a range is not finite, or the bounds are inverted. -/
  | malformedThreshold (status : Status) (min max : Binary64)
  /-- A cached record cannot be read. -/
  | badRecord (cause : RecordFault)
deriving DecidableEq

/-- Why the store gives no answer. -/
inductive Outage where
  /-- The store is offline. -/
  | offline
  /-- The connection broke while the records of a subject were read. -/
  | connectionReset (subject : String)
deriving DecidableEq

/-- Why an operation fails. -/
inductive Failure where
  | rejected (fault : Fault)
  | unavailable (outage : Outage)
deriving DecidableEq

/-- What stands for the reason why a text could not be decoded. -/
def undecodedDetail : String := "<detail>"

/-- The wording of a value that was not accepted. -/
def validationMessage (text : String) : String := "Validation failed: " ++ text

/-- The wording of a text that names no severity. -/
def unknownSeverityMessage (text : String) : String :=
  validationMessage ("unknown severity '" ++ text ++ "'")

/-- The wording of a record fault. -/
def RecordFault.message : RecordFault → String
  | missingField key => "sample record missing '" ++ key ++ "'"
  | noMetricPart name => "sample name '" ++ name ++ "' has no metric part"
  | unknownSeverity text => unknownSeverityMessage text
  | sampleTags name => "sample '" ++ name ++ "' has bad metricTags: " ++ undecodedDetail
  | sampleTime name => "sample '" ++ name ++ "' has bad updatedAt: " ++ undecodedDetail
  | metricTags => "metric record has bad tags: " ++ undecodedDetail
  | markerLabel label => "malformed boundary label '" ++ label ++ "'"

/-- The wording of a fault. -/
def Fault.message : Fault → String
  | unknownStatus text => validationMessage ("unknown range status '" ++ text ++ "'")
  | unknownSeverity text => unknownSeverityMessage text
  | mixedFilter text =>
    validationMessage ("filter '" ++ text ++ "' mixes included and excluded values")
  | depthSetting key text =>
    validationMessage (key ++ " must be a non-negative integer, got '" ++ text ++ "'")
  | malformedThreshold status min max =>
    "Malformed threshold definition: " ++ status.name ++ " range [" ++ min.toText ++ ", " ++
      max.toText ++ "]"
  | badRecord cause => "Invalid cached record: " ++ cause.message

/-- The wording of an outage. -/
def Outage.message : Outage → String
  | offline => "Storage unavailable: memory store offline"
  | connectionReset subject => "Storage unavailable: connection reset reading " ++ subject

/-- The wording of a failure. -/
def Failure.message : Failure → String
  | rejected fault => fault.message
  | unavailable outage => outage.message

end StatusBoard
