import Overseer.Poller

/-!
New polling settings.

Settings take effect at once: afterwards the poller has the interval, the threshold and the flag
that they give (`Poller.reconfigure_eq`), and a session's ticker is wound anew exactly if the
interval changes (`Session.handle_reconfigure`).
-/

namespace Overseer

namespace Poller

variable (p : Poller) (polling : Config.Polling)

/-- The poller with these settings. -/
def withSettings : Poller :=
  { p with
    cadence := p.cadence.setThreshold polling.skipThreshold
    interval := polling.interval
    notifyOnNotices := polling.notifyOnNotices }

theorem reconfigure_eq :
    p.reconfigure polling =
      (if polling.interval = p.interval then none else some polling.interval,
        p.withSettings polling) := by
  unfold reconfigure withSettings
  by_cases hsame : polling.interval = p.interval
  · simp [hsame]
  · simp [hsame]

end Poller

namespace Session

variable (s : Session) (now : Nat) (polling : Config.Polling)

/-- The session with these settings; a new interval begins now. -/
def withSettings : Session where
  poller := s.poller.withSettings polling
  ticker :=
    if polling.interval = s.poller.interval then s.ticker
    else .startingAt (now + polling.interval) polling.interval

theorem handle_reconfigure :
    s.handle now (.command (.reconfigure polling)) = some (pure (s.withSettings now polling)) := by
  have hpoller := s.poller.reconfigure_eq polling
  by_cases hsame : polling.interval = s.poller.interval
  · rw [if_pos hsame] at hpoller
    simp [handle, withSettings, hpoller, hsame]
  · rw [if_neg hsame] at hpoller
    simp [handle, withSettings, hpoller, hsame]

end Session

end Overseer
