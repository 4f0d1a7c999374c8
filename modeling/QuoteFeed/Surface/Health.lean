import QuoteFeed.Service.Schedule

/-!
# Health

The service is unhealthy without a catalog, degraded while markets are subscribed and the session
is not open, and healthy otherwise: an idle stream without a session is healthy.
-/

namespace QuoteFeed

open Time (Timestamp)

/-- The overall status. -/
inductive HealthStatus where
  | healthy
  | degraded
  | unhealthy
  deriving DecidableEq

/-- The name of a status. -/
def HealthStatus.name : HealthStatus → String
  | .healthy => "healthy"
  | .degraded => "degraded"
  | .unhealthy => "unhealthy"

/-- What is reported about the service. -/
structure Health where
  status : HealthStatus
  uptime : Nat
  time : Timestamp
  state : ConnectionState
  generation : Nat
  subscriptions : Nat
  demanded : Nat
  keepalive : Keepalive
  markets : Nat
  lastRefreshedAt : Option Timestamp

namespace Health

/-- The version of the service. -/
def version : String := "0.1.0"

/-- The status by the number of markets, the number of subscriptions and the state. -/
def statusOf (markets subscriptions : Nat) (state : ConnectionState) : HealthStatus :=
  if markets = 0 then .unhealthy
  else if subscriptions > 0 ∧ !state.isConnected then .degraded
  else .healthy

/-- The health of a service. -/
def of (env : Environment) (s : Service) : Health :=
  { status := statusOf (s.catalog.size s.now) s.subscribed.size s.state
    uptime := env.uptime s.now
    time := env.wall s.now
    state := s.state
    generation := s.generation
    subscriptions := s.subscribed.size
    demanded := s.demand.size
    keepalive := s.keepalive
    markets := s.catalog.size s.now
    lastRefreshedAt := s.catalog.lastRefreshedAt }

/-- The health as a JSON object. -/
def toJson (h : Health) : Json.Value :=
  .record [
    ("status", .text h.status.name),
    ("version", .text version),
    ("uptime_secs", .nat h.uptime),
    ("current_time", h.time.toJson),
    ("stream", .record [
      ("state", .text h.state.name),
      ("generation", .nat h.generation),
      ("subscriptions", .nat h.subscriptions),
      ("demanded", .nat h.demanded),
      ("keepalive", .record [
        ("pings_sent", .nat h.keepalive.pings),
        ("acks_received", .nat h.keepalive.acks),
        ("last_ping_at", .optional Timestamp.toJson h.keepalive.lastPing),
        ("last_ack_at", .optional Timestamp.toJson h.keepalive.lastAck)])]),
    ("catalog", .record [
      ("markets", .nat h.markets),
      ("last_refreshed_at", .optional Timestamp.toJson h.lastRefreshedAt)])]

end Health

end QuoteFeed
