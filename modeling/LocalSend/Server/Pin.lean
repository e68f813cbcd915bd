import LocalSend.Protocol.Types
import Mathlib.Algebra.Order.Ring.Nat

/-!
# Receiver-side PIN enforcement

Model of `src/server/pin.rs`: 401 on a mismatch, and 429 for `lockout` after
`maxFailures` wrong values from one address. Times are nanoseconds of a monotone
clock, `now` being what `Instant::now` returns during the call.
-/

namespace LocalSend

/-- `MAX_FAILURES`. -/
def maxFailures : Nat := 3

/-- `LOCKOUT`, five minutes. -/
def lockout : Nat := 5 * 60 * 1000000000

/-- `MAX_TRACKED_PEERS`. -/
def maxTrackedPeers : Nat := 1024

/-- The largest `u32`, where `wrong_values` saturates. -/
def u32Max : Nat := 2 ^ 32 - 1

inductive PinVerdict where
  /-- The request may proceed; `cleared` says a PIN was required and presented. -/
  | ok (cleared : Bool)
  | unauthorized
  | lockedOut
deriving DecidableEq, Repr

structure PinGate where
  pin : Option String
  /-- Count and time of the last failure, by address. -/
  failures : AssocMap IpAddr (Nat × Nat)
  wrongValues : Nat
deriving DecidableEq

namespace PinGate

/-- `PinGate::new`. -/
def new (pin : Option String) : PinGate := ⟨pin, .empty, 0⟩

/-- `PinGate::set`: replace the PIN and forget every counter. -/
def set (_ : PinGate) (pin : Option String) : PinGate := ⟨pin, .empty, 0⟩

/-- `constant_time_eq`: equal lengths, and no byte differs. -/
def constantTimeEq (a b : List UInt8) : Bool :=
  if a.length ≠ b.length then false
  else (a.zip b).foldl (fun acc p => acc ||| (p.1 ^^^ p.2)) (0 : UInt8) = 0

/-- The entry with the oldest last failure; the first such one in the table's order. -/
def oldest (failures : AssocMap IpAddr (Nat × Nat)) : Option IpAddr :=
  (failures.entries.foldl (fun best e =>
    match best with
    | none => some e
    | some b => if e.2.2 < b.2.2 then some e else some b) none).map Prod.fst

/-- `PinGate::make_room`: expired entries first, then the oldest one. -/
def makeRoom (g : PinGate) (now : Nat) : PinGate :=
  if g.failures.size < maxTrackedPeers then g
  else
    let live := g.failures.filter fun _ e => now - e.2 < lockout
    if live.size < maxTrackedPeers then { g with failures := live }
    else
      match oldest live with
      | none => { g with failures := live }
      | some peer => { g with failures := live.erase peer }

/-- `PinGate::check`. -/
def check (g : PinGate) (now : Nat) (provided : Option String) (peer : IpAddr) :
    PinVerdict × PinGate :=
  match g.pin with
  | none => (.ok false, g)
  | some expected =>
    let entry := g.failures.get? peer
    if entry.any fun e => e.1 ≥ maxFailures && now - e.2 < lockout then (.lockedOut, g)
    else
      -- a lockout that has run out is forgotten here, whatever was presented
      let g := if entry.any fun e => e.1 ≥ maxFailures then
        { g with failures := g.failures.erase peer } else g
      match provided with
      | none => (.unauthorized, g)
      | some provided =>
        if constantTimeEq provided.toUTF8.toList expected.toUTF8.toList then
          (.ok true, { g with failures := g.failures.erase peer, wrongValues := 0 })
        else
          let g := { g with wrongValues := min (g.wrongValues + 1) u32Max }
          let g := if g.failures.contains peer then g else g.makeRoom now
          let count := ((g.failures.get? peer).map Prod.fst).getD 0
          (.unauthorized, { g with failures := g.failures.insert peer (count + 1, now) })

end PinGate

end LocalSend
