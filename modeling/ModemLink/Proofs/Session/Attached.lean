/-
A session whose link stays up.

Reading ends with the first read that fails, and a read from a link that is up does not fail. Nothing that an
engine does takes its link down either. So a session whose link is never taken down goes on reading, however long
its script.
-/
import ModemLink.Proofs.Session.Poised

set_option autoImplicit false

namespace ModemLink

/-! ## A link that is up -/

namespace Link

variable {l : Link}

/-- A command does not switch a link. -/
theorem send_connected (now : Nat) (bytes : Bytes) (l : Link) :
    (l.send now bytes).2.connected = l.connected := by
  unfold send
  split
  · rfl
  · simp only
    split
    · rfl
    · split <;> rfl

/-- A read from a link that is up does not fail. -/
theorem receive_ne_error (hup : l.connected = true) (room : Nat) (err : Error) :
    (l.receive room).1 ≠ some (.error err) := by
  have hopen : ¬ (!l.connected) = true := by
    rw [hup]
    exact Bool.false_ne_true
  unfold receive
  rw [if_neg hopen]
  split <;> exact fun h => by cases h

end Link

/-! ## An engine that reads from it -/

namespace Engine

section

variable {τ ε : Type}

theorem answerTransmit_transport (ticket : Nat) (outcome : Except Error Nat) (e : Engine τ ε) :
    (e.answerTransmit ticket outcome).transport = e.transport := by
  unfold answerTransmit
  cases outcome <;> simp only <;> split <;> rfl

end

variable {ε : Type} {e : Engine Link ε}

theorem transmit_connected (now : Nat) (command : Text) (e : Engine Link ε) :
    (e.transmit now command).2.transport.connected = e.transport.connected := by
  have hsend : (Transport.send now (Utf8.encode command) e.transport).2.connected
      = e.transport.connected := Link.send_connected now _ _
  unfold transmit
  rcases e.receiver.begin command with err | ⟨number, receiver⟩
  · rfl
  · rcases hlink : Transport.send now (Utf8.encode command) e.transport with ⟨err | _, link⟩
    · rw [hlink] at hsend
      exact hsend
    · rw [hlink] at hsend
      exact hsend

/-- No request switches the link. -/
theorem serve_connected (now : Nat) (r : Request) (e : Engine Link ε) :
    (e.serve now r).transport.connected = e.transport.connected := by
  cases r with
  | transmit ticket command =>
    unfold serve
    simp only
    rw [answerTransmit_transport]
    split
    · exact transmit_connected now command e
    · rfl
  | configure ticket t =>
    unfold serve configure
    simp only
    split <;> rfl
  | _ => rfl

/-- **An engine that still reads,** and whose link is up. -/
structure Attached (e : Engine Link ε) : Prop where
  connected : e.connected = true
  up : e.transport.connected = true

namespace Attached

theorem serveNext (h : e.Attached) (now : Nat) : (e.serveNext now).Attached := by
  refine ⟨(serveNext_connected e now).trans h.connected, ?_⟩
  unfold Engine.serveNext
  rcases e.requests with - | ⟨r, rest⟩
  · exact h.up
  · exact (serve_connected now r _).trans h.up

/-- Bytes do not end reading. -/
theorem received (h : e.Attached) (now : Nat) (bytes : Bytes) : (e.received now (.ok bytes)).Attached := by
  obtain ⟨k, events, waiter, resolutions, hdelivered⟩ :=
    exists_foldl_deliver now (e.receiver.feed bytes).2 e
  have hreceived : e.received now (.ok bytes) = _ := hdelivered (e.receiver.feed bytes).1 e.transport
  rw [hreceived]
  exact ⟨h.connected, h.up⟩

theorem drain (h : e.Attached) (now n : Nat) : (e.drain now n).Attached := by
  induction n generalizing e with
  | zero => exact h
  | succ n ih =>
    have hkept : (Transport.receive readSize e.transport).2.connected = true :=
      (e.transport.receive_keeps readSize).1.trans h.up
    have hfine : ∀ err, (Transport.receive readSize e.transport).1 ≠ some (.error err) :=
      Link.receive_ne_error h.up readSize
    unfold Engine.drain
    split
    · -- nothing is there, or bytes are; the third outcome would be a failure
      rcases hlink : Transport.receive readSize e.transport with ⟨- | err | bytes, link⟩
      · rw [hlink] at hkept
        exact ⟨h.connected, hkept⟩
      · rw [hlink] at hfine
        exact absurd rfl (hfine err)
      · rw [hlink] at hkept
        have hread : Attached { e with transport := link } := ⟨h.connected, hkept⟩
        exact ih (hread.received now bytes)
    · exact h

theorem run (h : e.Attached) (now : Nat) : (e.run now).Attached :=
  have hserved : Attached (e.requests.length.repeat (Engine.serveNext now) e) :=
    serve_induction (P := Attached) now (fun _ h => h.serveNext now) _ h
  hserved.drain now _

end Attached

end Engine

/-! ## A session on it -/

namespace Timeline

variable {ε : Type} {falls : Prop} {t t' : Timeline ε} {ns : List (Notification ε)}

/-- **Nothing ends reading** as long as the link is not taken down. -/
theorem Change.attached (hstays : ¬ falls) (hchange : Change falls t t' ns) (h : t.engine.Attached) :
    t'.engine.Attached := by
  -- the engine runs when everything settles, and only the application acts on the link besides
  cases hchange with
  | settle =>
    have hmet : t.met.Attached := ⟨h.connected, h.up⟩
    have hrun := hmet.run t.now
    exact ⟨hrun.connected, hrun.up⟩
  | link f hup => exact ⟨h.connected, (hup _ h.up).resolve_right hstays⟩
  | submit request =>
    unfold Engine.submit
    split <;> exact ⟨h.connected, h.up⟩
  | cancel number =>
    unfold cancelRequest Engine.submitCancel
    split <;> exact ⟨h.connected, h.up⟩
  | _ => exact ⟨h.connected, h.up⟩

theorem Course.attached (hstays : ¬ falls) (hcourse : Course falls t t' ns) (h : t.engine.Attached) :
    t'.engine.Attached := by
  induction hcourse with
  | refl => exact h
  | step _ hchange ih => exact hchange.attached hstays ih

end Timeline

namespace Session

variable {ε : Type} {s : Session ε}

/-- **A script that does not take the link down** leaves a session that reads. -/
theorem attached_of_open {link : Link} {setup : Setup ε} {opened : Session ε}
    (hopen : setup.openOver link = .ok opened) {script : List Action}
    (hstays : Action.happen (.setConnected false) ∉ script) :
    (opened.run script).2.timeline.engine.Attached := by
  obtain ⟨-, hup, -⟩ := of_openOver hopen
  exact (course_of_open hopen script id).attached hstays ⟨rfl, hup⟩

/-- Time alone does not end reading. -/
theorem Poised.attached_sleepUntil (h : s.Poised) (hattached : s.timeline.engine.Attached) {target : Nat}
    (hnow : s.now ≤ target) : (s.timeline.sleepUntil target).engine.Attached :=
  (h.sleepUntil_course hnow).attached not_false hattached

end Session

end ModemLink
