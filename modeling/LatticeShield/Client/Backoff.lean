import LatticeShield.Client.Config
import LatticeShield.Lib.Machine

/-!
# The pause before a retry (`backoff` in `latticeshield-client/src/client_session.rs`)

The delay doubles with every attempt up to the twentieth, is cut off at `max_delay_ms`, and is then
moved by at most a fifth in either direction. The subtraction may go below zero, which is why the
source computes it in `i64`; what that does to the other end of the range is a matter of
`Proof/Backoff.lean`.
-/

set_option autoImplicit false

namespace LatticeShield.Client

open Lib

/-- In milliseconds, with what `OsRng.next_u32()` has returned. `Checked` carries along whether
every step gives what integers give; the value is the wrapped one either way. -/
def backoff (attempt : UInt32) (cfg : ReconnectConfig) (random : UInt32) : Checked UInt64 := do
  let factor ← shlU64 1 (min attempt 20)
  let raw := saturatingMul cfg.baseDelayMs factor
  let capped := min raw cfg.maxDelayMs
  let jitterSpan := max (capped / 5) 1
  -- `random in [0, jitter_span*2]`
  let doubled ← mulU64 jitterSpan 2
  let modulus ← addU64 doubled 1
  let jitter := random.toUInt64 % modulus
  let sum ← addI64 (← toI64 capped) (← toI64 jitter)
  let ms ← subI64 sum (← toI64 jitterSpan)
  toU64 (max ms 1)

end LatticeShield.Client
