import QuoteFeed.Settings
import QuoteFeed.Surface.Uri

/-!
# Export of traces

Whether traces are exported, where to and under which name.  Setting up the export fails if it is
enabled and its endpoint is no address.
-/

namespace QuoteFeed

/-- The settings of the export of traces. -/
structure Tracing where
  enabled : Bool
  endpoint : String
  service : String
  deriving DecidableEq

namespace Tracing

/-- No export, with the usual endpoint and name. -/
def default : Tracing :=
  { enabled := false, endpoint := "http://localhost:4317", service := "quotation-stream" }

/-- The value of a variable that is not blank, or a default. -/
def textOr (vars : Variables) (key absent : String) : String :=
  ((vars key).filter fun v => !Text.isBlankText v).getD absent

/-- The settings that variables describe. -/
def ofVariables (vars : Variables) : Tracing :=
  { enabled := ((vars "OTEL_ENABLED").map fun v => Text.sameLetters v "true").getD false
    endpoint := textOr vars "OTEL_EXPORTER_OTLP_ENDPOINT" default.endpoint
    service := textOr vars "OTEL_SERVICE_NAME" default.service }

/-- Why the export cannot be set up. -/
inductive Error where
  /-- The endpoint is no address. -/
  | exporter
  /-- The process has a subscriber to its log events already. -/
  | subscriber
  deriving DecidableEq

/-- The text of an error, without the cause of a bad endpoint. -/
def Error.message : Error → String
  | .exporter => "failed to create OTLP exporter: "
  | .subscriber =>
    "failed to install tracing subscriber: a global default trace dispatcher has already been set"

/-- Sets up the export, in a process that may have a subscriber already.  The exporter is made
first. -/
def install (t : Tracing) (subscribed : Bool) : Except Error Unit :=
  if t.enabled && !Uri.isValid t.endpoint then .error .exporter
  else if subscribed then .error .subscriber
  else .ok ()

end Tracing

end QuoteFeed
