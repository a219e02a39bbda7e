import Magicbox.Library.Unwinding
import Magicbox.Source.Gate

/-!
# Without the token

What clients that do not present the token can do to the appliance, and what they
learn from it, in every schedule of all threads and clients. Their requests and
messages could be left out: the queue, the jobs, the answers of the others and
the sockets come out the same. They are told that they are unauthorized, or
nothing.
-/

set_option autoImplicit false

namespace Magicbox.Guarantees.Authorization
open Library Library.Runs Library.Unwinding Source.Json Source.LiveSocket Source.Gate

variable {κ σ ε : Type} {app : App κ σ ε}

/-! ## Presenting the token -/

/-- What the handler for requests asks for. -/
def Presents (token_ : List UInt8) (r : HttpRequest κ) : Prop :=
  validOrigin r = true ∧ r.header "authorization" = bytes "Bearer " ++ token_

instance (token_ : List UInt8) (r : HttpRequest κ) : Decidable (Presents token_ r) :=
  inferInstanceAs (Decidable (_ ∧ _))

theorem authorized_iff {token_ : List UInt8} {r : HttpRequest κ} :
    authorized token_ r = true ↔ Presents token_ r := by
  have hseven : (bytes "Bearer ").length = 7 := by decide
  unfold authorized Presents
  rw [Bool.and_eq_true, Bool.and_eq_true, tokenEqual_iff, List.isPrefixOf_iff_prefix, and_assoc]
  refine and_congr_right fun _ => ?_
  constructor
  · rintro ⟨⟨rest, hrest⟩, htoken⟩
    rw [← hrest, List.drop_left' hseven] at htoken
    rw [← hrest, htoken]
  · intro hheader
    rw [hheader]
    exact ⟨⟨_, rfl⟩, (List.drop_left' hseven).symm⟩

/-! ## Events without the token -/

def Asking (token_ : List UInt8) (m : Message) : Bool :=
  match readMessage token_ m with
  | .asks _ => true
  | _ => false

/-- A request that does not present the token, a connection from another origin, and a message
without the token. -/
def silent (token_ : List UInt8) : Event κ σ ε → Bool
  | .http _ r => !decide (Presents token_ r)
  | .connect _ r => !validOrigin r
  | .message _ m => !Asking token_ m
  | _ => false

variable {s t : Front σ ε}

theorem unwinding (app : App κ σ ε) :
    Insulated (Front.step app) Front.core (silent app.token_) := by
  constructor
  · intro s event hsilent
    unfold Front.step
    split
    · cases event with
      | http client r =>
        have hrefused : authorized app.token_ r = false := by
          rw [← Bool.not_eq_true, authorized_iff]
          simpa [silent] using hsilent
        simp [Front.http, hrefused]
      | connect k r =>
        have horigin : validOrigin r = false := by simpa [silent] using hsilent
        simp [Front.connect, horigin]
      | message k m =>
        cases hread : readMessage app.token_ m with
        | asks ack => simp [silent, Asking, hread] at hsilent
        | ignored => simp [Front.message, hread]
        | violation =>
          simp only [Front.message, hread]
          split
          · rfl
          · split <;> rfl
        | invalidMessage =>
          simp only [Front.message, hread]
          split
          · rfl
          · split <;> rfl
      | exchange k => cases hsilent
      | enqueue k => cases hsilent
      | disconnect k => cases hsilent
      | queue event => cases hsilent
    · rfl
  · intro s t event hcore
    obtain ⟨core, refused, shutdown⟩ := s
    obtain ⟨core', refused', shutdown'⟩ := t
    obtain rfl : core = core' := hcore
    simp only [Front.step]
    split
    · cases event with
      | http client r =>
        simp only [Front.http]
        split <;> rfl
      | connect k r =>
        simp only [Front.connect]
        split
        · split <;> rfl
        · rfl
      | message k m =>
        simp only [Front.message]
        split
        · rfl
        · rfl
        · split
          · rfl
          · split <;> rfl
        · split
          · rfl
          · split <;> rfl
      | queue event => cases event <;> rfl
      | _ => rfl
    · rfl

/-! ## What is answered without the queue -/

/-- The refusal of a request: an error that names nothing of the appliance, with status 401. -/
def refusal (token_ : List UInt8) : Event κ σ ε → Option (Nat × (Value × Nat))
  | .http client r =>
    if Presents token_ r then none
    else some (client, Value.null.set "error" (.string "Unauthorized"), 401)
  | _ => none

theorem alive_step {event : Event κ σ ε} (h : (s.step app event).core.queue.alive = true) :
    s.core.queue.alive = true := by
  by_contra hdead
  unfold Front.step at h
  rw [if_neg hdead] at h
  exact hdead h

theorem refused_step (event : Event κ σ ε) (halive : s.core.queue.alive = true) :
    (s.step app event).refused = s.refused ++ (refusal app.token_ event).toList := by
  unfold Front.step
  rw [if_pos halive]
  cases event with
  | http client r =>
    have hiff : authorized app.token_ r = true ↔ Presents app.token_ r := authorized_iff
    by_cases hpresents : Presents app.token_ r
    · simp [Front.http, refusal, hiff.mpr hpresents, hpresents]
    · simp [Front.http, refusal, mt hiff.mp hpresents, hpresents, unauthorized,
        Source.ControlQueue.errorJson]
  | connect k r =>
    simp only [Front.connect, refusal, Option.toList_none, List.append_nil]
    split
    · split <;> rfl
    · rfl
  | message k m =>
    simp only [Front.message, refusal, Option.toList_none, List.append_nil]
    split
    · rfl
    · rfl
    · split
      · rfl
      · split <;> rfl
    · split
      · rfl
      · split <;> rfl
  | queue event => cases event <;> simp [refusal]
  | _ => simp [refusal]

theorem refused_run (runtime : σ) (events : List (Event κ σ ε))
    (halive : (serve app runtime events).core.queue.alive = true) :
    (serve app runtime events).refused = events.filterMap (refusal app.token_) := by
  induction events using List.reverseRecOn with
  | nil => rfl
  | append_singleton past event ih =>
    have hsnoc : serve app runtime (past ++ [event]) = (serve app runtime past).step app event :=
      run_snoc _ _ _
    rw [hsnoc] at halive ⊢
    have hbefore := alive_step halive
    rw [refused_step event hbefore, ih hbefore, List.filterMap_append]
    cases hrefusal : refusal app.token_ event <;> simp [hrefusal]

/-! ## Sockets without the token -/

/-- Nothing is on its way to a socket, and nothing was sent on it. -/
structure Untold (k : Nat) (c : Core σ ε) : Prop where
  clients : .socket k ∉ c.clients
  socket : ∀ socket, c.sockets k = some socket → socket.stage = .idle ∧ socket.sent = []

variable {k : Nat} {c : Core σ ε}

/-- Another socket changes. -/
theorem Untold.put (h : Untold k c) {j : Nat} {socket : Socket}
    (hsocket : j = k → socket.stage = .idle ∧ socket.sent = []) : Untold k (c.put j socket) := by
  refine ⟨h.clients, fun own hown => ?_⟩
  by_cases hjk : k = j
  · subst hjk
    simp only [Core.put, Function.update_self, Option.some.injEq] at hown
    exact hown ▸ hsocket rfl
  · simp only [Core.put, Function.update_of_ne hjk] at hown
    exact h.socket own hown

theorem untold_deliver (h : Untold k c) (act : Source.ControlQueue.Act) :
    Untold k (c.deliver act) := by
  cases act with
  | answered id reply =>
    simp only [Core.deliver]
    split
    · exact h
    · exact ⟨h.clients, h.socket⟩
    · next j hclient =>
      split
      · exact h
      · refine h.put fun hjk => absurd ?_ h.clients
        rw [← hjk]
        exact List.mem_of_getElem? hclient
  | _ => exact h

theorem untold_advance (h : Untold k c) (event : Source.ControlQueue.Event σ ε) :
    Untold k (c.advance app event) := by
  have hdeliver : ∀ (acts : List Source.ControlQueue.Act) (d : Core σ ε), Untold k d →
      Untold k (acts.foldl Core.deliver d) := by
    intro acts
    induction acts with
    | nil => exact fun d hd => hd
    | cons act rest ih => exact fun d hd => ih _ (untold_deliver hd act)
  exact hdeliver _ _ ⟨h.clients, h.socket⟩

theorem untold_submit (h : Untold k c) {client : Client} (hclient : client ≠ .socket k)
    (task : Source.ControlQueue.Task σ ε) : Untold k (c.submit app client task) := by
  unfold Core.submit
  split
  · exact h
  · have hlonger : Untold k { c with clients := c.clients ++ [client] } :=
      ⟨by simp [h.clients, hclient.symm], h.socket⟩
    exact untold_advance hlonger _

theorem untold_step (h : Untold k s.core) {event : Event κ σ ε}
    (hevent : ∀ m, event = .message k m → Asking app.token_ m = false) :
    Untold k (s.step app event).core := by
  unfold Front.step
  split
  · cases event with
    | http client r =>
      simp only [Front.http]
      split
      · exact untold_submit h (by simp) _
      · exact h
    | connect j r =>
      simp only [Front.connect]
      split
      · split
        · exact h.put fun _ => ⟨rfl, rfl⟩
        · exact h
      · exact h
    | message j m =>
      cases hread : readMessage app.token_ m with
      | asks ack =>
        have hjk : j ≠ k := by
          rintro rfl
          have hsilent := hevent m rfl
          simp [Asking, hread] at hsilent
        simp only [Front.message, hread, Core.compare]
        split
        · exact h
        · split
          · exact h.put fun heq => absurd heq hjk
          · exact h
      | ignored =>
        simp only [Front.message, hread]
        exact h
      | violation =>
        simp only [Front.message, hread]
        split
        · exact h
        · split <;> exact h
      | invalidMessage =>
        simp only [Front.message, hread]
        split
        · exact h
        · split <;> exact h
    | exchange j =>
      simp only [Core.exchange]
      split
      · exact h
      · next socket hsocket =>
        split
        · next hcompared =>
          have hjk : j ≠ k := by
            rintro rfl
            have hidle := (h.socket socket hsocket).1
            rw [hcompared] at hidle
            cases hidle
          split <;> exact h.put fun heq => absurd heq hjk
        · exact h
    | enqueue j =>
      simp only [Core.enqueue]
      split
      · exact h
      · next socket hsocket =>
        split
        · next hexchanged =>
          have hjk : j ≠ k := by
            rintro rfl
            have hidle := (h.socket socket hsocket).1
            rw [hexchanged.1] at hidle
            cases hidle
          refine untold_submit (h.put fun heq => absurd heq hjk) ?_ _
          simpa using hjk
        · exact h
    | disconnect j =>
      simp only [Core.disconnect]
      split
      · exact h
      · next socket hsocket =>
        refine h.put ?_
        rintro rfl
        exact h.socket socket hsocket
    | queue event =>
      cases event with
      | submit task => exact h
      | _ => exact untold_advance h _
  · exact h

/-- A client without the token has no influence and learns nothing, in every
schedule: without its requests, connections and messages the queue, the jobs, the
answers and the sockets come out the same; each of its requests is answered
"Unauthorized" with status 401 at once; and nothing is ever sent on a socket on which the token
was not presented. -/
theorem unauthorized_inert (app : App κ σ ε) (runtime : σ) (events : List (Event κ σ ε)) :
    (serve app runtime events).core =
      (serve app runtime (events.filter fun event => !silent app.token_ event)).core ∧
    ((serve app runtime events).core.queue.alive = true →
      (serve app runtime events).refused = events.filterMap (refusal app.token_)) ∧
    ∀ k, (∀ m, .message k m ∈ events → Asking app.token_ m = false) →
      ∀ socket, (serve app runtime events).core.sockets k = some socket → socket.sent = [] := by
  refine ⟨(unwinding app).purge _ events, refused_run runtime events, fun k hquiet socket hk => ?_⟩
  have huntold : Untold k (serve app runtime events).core := by
    refine invariant (P := fun event => ∀ m, event = .message k m → Asking app.token_ m = false)
      (I := fun s : Front σ ε => Untold k s.core) (fun s event hevent h => untold_step h hevent)
      ⟨List.not_mem_nil, by simp⟩ fun event hevent m heq => hquiet m (heq ▸ hevent)
  exact (huntold.socket socket hk).2

end Magicbox.Guarantees.Authorization
