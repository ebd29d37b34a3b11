import LinkLake.Core.Uuid
import LinkLake.Foundations.FiniteMap
import LinkLake.Foundations.Runs

/-!
# The sessions of UDP tunnels and their gauge

A runtime of a UDP policy keeps a session for every public endpoint that sends to its port, in two
maps (`udp_tunnel.rs`). A port group has a runtime for each of its ports, and the statistics belong
to the policy, so all of them count on one gauge, `activeSessions`.

A loop adds one for a session that it creates and takes one away for a session that it removes, but
when it stops it stores zero. The gauge is exact in every run in which no runtime stops while another
one has sessions (`activeSessions_exact`), and only there: the store wipes out what the others have
counted, and their decrements then wrap below zero (`stop_wipes_gauge`).

What decides whether a new session is admitted, apart from the permits of the process, is an answer
of the environment. Datagrams are left out: here a forwarded datagram only touches its session.
-/

namespace LinkLake.UdpTunnel

open FiniteMap

/-- The values of a `usize`. -/
def usizeSize : ℕ := 2 ^ 64

/-- `fetch_add(1)`. -/
def fetchAdd (counter : ℕ) : ℕ := (counter + 1) % usizeSize

/-- `fetch_sub(1)`. -/
def fetchSub (counter : ℕ) : ℕ := (counter + (usizeSize - 1)) % usizeSize

variable {counter : ℕ}

theorem fetchAdd_eq (h : counter + 1 < usizeSize) : fetchAdd counter = counter + 1 :=
  Nat.mod_eq_of_lt h

theorem fetchSub_succ (h : counter < usizeSize) : fetchSub (counter + 1) = counter := by
  have hsum : counter + 1 + (usizeSize - 1) = counter + usizeSize := by
    have : 0 < usizeSize := by decide
    omega
  rw [fetchSub, hsum, Nat.add_mod_right, Nat.mod_eq_of_lt h]

/-! ## One loop -/

/-- A session of a public endpoint. -/
structure UdpSession where
  sessionId : Uuid
  lastActivity : ℕ
  deriving DecidableEq

variable {E : Type*} [DecidableEq E]

/-- The session tables of a runtime, over the public endpoints `E`. -/
structure Runtime (E : Type*) where
  sessionIdleTimeout : ℕ
  sessionsByExternal : FiniteMap E UdpSession
  externalBySession : FiniteMap Uuid E
  deriving DecidableEq

/-- What a loop works on: its tables, the gauge of its policy, and the session permits that are left
in the process. -/
structure Loop (E : Type*) where
  runtime : Runtime E
  activeSessions : ℕ
  globalPermits : ℕ

/-- The tables without the session of an endpoint. -/
def Runtime.removeSession (r : Runtime E) (endpoint : E) : Option (Runtime E) :=
  (r.sessionsByExternal.get? endpoint).map fun session =>
    { r with
      sessionsByExternal := r.sessionsByExternal.erase endpoint
      externalBySession := r.externalBySession.erase session.sessionId }

namespace Loop

/-- Remove a session, whose permit is dropped with it. -/
def remove (l : Loop E) (endpoint : E) : Loop E :=
  match l.runtime.removeSession endpoint with
  | some runtime => ⟨runtime, fetchSub l.activeSessions, l.globalPermits + 1⟩
  | none => l

/-- A new session takes a permit. -/
def create (l : Loop E) (endpoint : E) (sessionId : Uuid) (now : ℕ) : Loop E :=
  ⟨{ l.runtime with
      sessionsByExternal := l.runtime.sessionsByExternal.insert endpoint ⟨sessionId, now⟩
      externalBySession := l.runtime.externalBySession.insert sessionId endpoint },
    fetchAdd l.activeSessions, l.globalPermits - 1⟩

/-- A datagram passes through a session. -/
def touch (l : Loop E) (endpoint : E) (session : UdpSession) (now : ℕ) : Loop E :=
  { l with runtime := { l.runtime with sessionsByExternal :=
      l.runtime.sessionsByExternal.insert endpoint { session with lastActivity := now } } }

/-- A datagram from a public endpoint. If it cannot be fragmented or sent, a session that was made
for it is undone. -/
def publicDatagram (l : Loop E) (endpoint : E) (sessionId : Uuid) (now : ℕ)
    (admitted sent : Bool) : Loop E :=
  match l.runtime.sessionsByExternal.get? endpoint with
  | some session => l.touch endpoint session now
  | none =>
    if !admitted || l.globalPermits == 0 then l
    else if sent then l.create endpoint sessionId now
    else (l.create endpoint sessionId now).remove endpoint

/-- A datagram that the agent sends back through a session. -/
def agentDatagram (l : Loop E) (sessionId : Uuid) (now : ℕ) : Loop E :=
  match l.runtime.externalBySession.get? sessionId with
  | none => l
  | some endpoint =>
    match l.runtime.sessionsByExternal.get? endpoint with
    | none => l
    | some session => l.touch endpoint session now

/-- The agent closes a session. -/
def closeSession (l : Loop E) (sessionId : Uuid) : Loop E :=
  match l.runtime.externalBySession.get? sessionId with
  | none => l
  | some endpoint => l.remove endpoint

/-- One pass of the loop over the idle sessions. The gauge goes down whether or not there is one. -/
def expireOne (l : Loop E) (endpoint : E) : Loop E :=
  match l.runtime.removeSession endpoint with
  | some runtime => ⟨runtime, fetchSub l.activeSessions, l.globalPermits + 1⟩
  | none => { l with activeSessions := fetchSub l.activeSessions }

/-- The endpoints whose sessions have been idle too long. -/
def expired (r : Runtime E) (now : ℕ) : List E :=
  (r.sessionsByExternal.toList.filter fun entry =>
    entry.2.lastActivity ≤ now ∧ r.sessionIdleTimeout ≤ now - entry.2.lastActivity).map Prod.fst

/-- The idle sessions are removed, one after the other. -/
def sweep (l : Loop E) (now : ℕ) : Loop E := (expired l.runtime now).foldl expireOne l

end Loop

/-! ## All runtimes of a policy -/

/-- The runtimes that share the statistics of a policy, by their registrations. -/
structure Policy (E : Type*) where
  runtimes : FiniteMap Uuid (Runtime E)
  activeSessions : ℕ
  globalPermits : ℕ

inductive Event (E : Type*)
  | start (registration : Uuid) (sessionIdleTimeout : ℕ)
  | publicDatagram (registration : Uuid) (endpoint : E) (sessionId : Uuid) (now : ℕ)
      (admitted sent : Bool)
  | agentDatagram (registration sessionId : Uuid) (now : ℕ)
  | closeSession (registration sessionId : Uuid)
  | sweep (registration : Uuid) (now : ℕ)
  | stop (registration : Uuid)
  /-- The sessions of other policies leave so many permits. -/
  | others (globalPermits : ℕ)

namespace Policy

/-- The number of live sessions. -/
def live (p : Policy E) : ℕ := p.runtimes.total fun r => r.sessionsByExternal.size

/-- A branch of the loop of one runtime. -/
def withLoop (p : Policy E) (registration : Uuid) (branch : Loop E → Loop E) : Option (Policy E) :=
  (p.runtimes.get? registration).map fun runtime =>
    let l := branch ⟨runtime, p.activeSessions, p.globalPermits⟩
    ⟨p.runtimes.insert registration l.runtime, l.activeSessions, l.globalPermits⟩

/-- The end of a loop: its sessions are dropped with their permits, and the gauge is set to zero. -/
def stop (p : Policy E) (registration : Uuid) : Option (Policy E) :=
  (p.runtimes.get? registration).map fun runtime =>
    ⟨p.runtimes.erase registration, 0, p.globalPermits + runtime.sessionsByExternal.size⟩

/-- A branch of a loop is one step, although the loops of a policy run beside each other: it changes
no tables but its own, and the gauge and the permits by atomic additions and subtractions, which end
in the same state in any order. What a stop stores comes before or after all of them. -/
def step (p : Policy E) : Event E → Option (Policy E)
  | .start registration timeout =>
    if registration ∈ p.runtimes then none
    else some { p with runtimes := p.runtimes.insert registration ⟨timeout, ∅, ∅⟩ }
  | .publicDatagram registration endpoint sessionId now admitted sent =>
    p.withLoop registration (·.publicDatagram endpoint sessionId now admitted sent)
  | .agentDatagram registration sessionId now =>
    p.withLoop registration (·.agentDatagram sessionId now)
  | .closeSession registration sessionId => p.withLoop registration (·.closeSession sessionId)
  | .sweep registration now => p.withLoop registration (·.sweep now)
  | .stop registration => p.stop registration
  | .others globalPermits => some { p with globalPermits }

end Policy

/-- What the environment keeps to: session identifiers are fresh, and a semaphore of so many permits
has no more of them. -/
def Event.Admissible (capacity : ℕ) (p : Policy E) : Event E → Prop
  | .publicDatagram registration _ sessionId _ _ _ =>
    ∀ r, p.runtimes.get? registration = some r → sessionId ∉ r.externalBySession
  | .others globalPermits => globalPermits + p.live ≤ capacity
  | _ => True

/-- A runtime that stops is the only one that has sessions. -/
def Event.StopsAlone (p : Policy E) : Event E → Prop
  | .stop registration => ∀ other r, p.runtimes.get? other = some r → other ≠ registration →
    r.sessionsByExternal.size = 0
  | _ => True

def Step (capacity : ℕ) (p : Policy E) (e : Event E) (p' : Policy E) : Prop :=
  p.step e = some p' ∧ e.Admissible capacity p

/-! ## The gauge seen from one loop -/

/-- The two tables of a runtime are inverse to each other. -/
structure Runtime.Inverse (r : Runtime E) : Prop where
  external : ∀ endpoint session, r.sessionsByExternal.get? endpoint = some session →
    r.externalBySession.get? session.sessionId = some endpoint
  session : ∀ sessionId endpoint, r.externalBySession.get? sessionId = some endpoint →
    ∃ session, r.sessionsByExternal.get? endpoint = some session ∧ session.sessionId = sessionId

/-- The gauge counts the sessions of the loop beside `base` sessions of others. -/
structure Loop.Exact (base capacity : ℕ) (l : Loop E) : Prop where
  inverse : l.runtime.Inverse
  gauge : l.activeSessions = base + l.runtime.sessionsByExternal.size
  permits : l.globalPermits + (base + l.runtime.sessionsByExternal.size) ≤ capacity

namespace Loop

variable {l : Loop E} {base capacity : ℕ} {endpoint : E} {session : UdpSession} {sessionId : Uuid}
  {now : ℕ}

variable (h : l.Exact base capacity)
include h

section

variable (hcapacity : capacity < usizeSize)
include hcapacity

theorem Exact.remove_present (hget : l.runtime.sessionsByExternal.get? endpoint = some session) :
    (l.remove endpoint).Exact base capacity ∧ l.expireOne endpoint = l.remove endpoint ∧
      (l.remove endpoint).runtime.sessionsByExternal
        = l.runtime.sessionsByExternal.erase endpoint := by
  have hsize := size_erase hget
  have hgauge := h.gauge
  have hpermits := h.permits
  rw [← hsize, ← Nat.add_assoc] at hgauge
  simp only [remove, expireOne, Runtime.removeSession, hget, Option.map_some]
  refine ⟨⟨⟨fun e s hs => ?_, fun id e he => ?_⟩, ?_, ?_⟩, trivial, trivial⟩
  · rw [get?_erase] at hs
    split_ifs at hs with hne
    rw [get?_erase_of_ne]
    · exact h.inverse.external e s hs
    · intro hid
      have hsame := h.inverse.external endpoint session hget
      rw [← hid, h.inverse.external e s hs] at hsame
      exact hne (Option.some.inj hsame)
  · rw [get?_erase] at he
    split_ifs at he with hid
    obtain ⟨s, hs, rfl⟩ := h.inverse.session id e he
    refine ⟨s, ?_, rfl⟩
    rw [get?_erase_of_ne]
    · exact hs
    · rintro rfl
      rw [hget] at hs
      exact hid (by rw [Option.some.inj hs])
  · dsimp only
    rw [hgauge, fetchSub_succ (by omega)]
  · dsimp only
    omega

theorem Exact.remove (endpoint : E) : (l.remove endpoint).Exact base capacity := by
  cases hget : l.runtime.sessionsByExternal.get? endpoint with
  | none => simpa [Loop.remove, Runtime.removeSession, hget] using h
  | some session => exact (h.remove_present hcapacity hget).1

theorem Exact.create (hnew : l.runtime.sessionsByExternal.get? endpoint = none)
    (hfresh : sessionId ∉ l.runtime.externalBySession) (hpermit : l.globalPermits ≠ 0) :
    (l.create endpoint sessionId now).Exact base capacity := by
  have hsize := size_insert_new hnew (⟨sessionId, now⟩ : UdpSession)
  have hgauge := h.gauge
  have hpermits := h.permits
  refine ⟨⟨fun e s hs => ?_, fun id e he => ?_⟩, ?_, ?_⟩
  · simp only [Loop.create, get?_insert] at hs ⊢
    split_ifs at hs with he
    · cases hs
      rw [if_pos rfl, he]
    · have hsession := h.inverse.external e s hs
      have hne : s.sessionId ≠ sessionId := by
        rintro rfl
        exact hfresh (mem_of_get? hsession)
      rw [if_neg hne]
      exact hsession
  · simp only [Loop.create, get?_insert] at he ⊢
    split_ifs at he with hid
    · cases he
      exact ⟨_, if_pos rfl, hid.symm⟩
    · obtain ⟨s, hs, hsid⟩ := h.inverse.session id e he
      rw [if_neg fun heq => by rw [heq, hnew] at hs; cases hs]
      exact ⟨s, hs, hsid⟩
  · simp only [Loop.create, hsize, hgauge]
    exact fetchAdd_eq (by omega)
  · simp only [Loop.create, hsize]
    omega

end

theorem Exact.touch (hget : l.runtime.sessionsByExternal.get? endpoint = some session) :
    (l.touch endpoint session now).Exact base capacity := by
  have hsize := size_replace hget { session with lastActivity := now }
  refine ⟨⟨fun e s hs => ?_, fun id e he => ?_⟩, ?_, ?_⟩
  · simp only [Loop.touch, get?_insert] at hs ⊢
    split_ifs at hs with heq
    · cases hs
      rw [heq]
      exact h.inverse.external endpoint session hget
    · exact h.inverse.external e s hs
  · simp only [Loop.touch, get?_insert] at he ⊢
    obtain ⟨s, hs, rfl⟩ := h.inverse.session id e he
    split_ifs with heq
    · rw [heq, hget] at hs
      cases hs
      exact ⟨_, rfl, rfl⟩
    · exact ⟨s, hs, rfl⟩
  · simp only [Loop.touch, hsize, h.gauge]
  · simp only [Loop.touch, hsize]
    exact h.permits

theorem Exact.publicDatagram (hcapacity : capacity < usizeSize)
    (hfresh : sessionId ∉ l.runtime.externalBySession) (endpoint : E) (now : ℕ)
    (admitted sent : Bool) :
    (l.publicDatagram endpoint sessionId now admitted sent).Exact base capacity := by
  unfold Loop.publicDatagram
  split
  · rename_i session hget
    exact h.touch hget
  · rename_i hnew
    split_ifs with hrefused hsent
    · exact h
    · exact h.create hcapacity hnew hfresh (by simp_all)
    · exact (h.create hcapacity hnew hfresh (by simp_all)).remove hcapacity endpoint

theorem Exact.agentDatagram (sessionId : Uuid) (now : ℕ) :
    (l.agentDatagram sessionId now).Exact base capacity := by
  unfold Loop.agentDatagram
  split
  · exact h
  · split
    · exact h
    · rename_i session hget
      exact h.touch hget

variable (hcapacity : capacity < usizeSize)
include hcapacity

theorem Exact.closeSession (sessionId : Uuid) : (l.closeSession sessionId).Exact base capacity := by
  unfold Loop.closeSession
  split
  · exact h
  · exact h.remove hcapacity _

theorem Exact.foldl_expireOne {endpoints : List E} (hnodup : endpoints.Nodup)
    (hmem : ∀ endpoint ∈ endpoints, endpoint ∈ l.runtime.sessionsByExternal) :
    (endpoints.foldl expireOne l).Exact base capacity := by
  induction endpoints generalizing l with
  | nil => exact h
  | cons endpoint endpoints ih =>
    obtain ⟨hnotMem, hnodup⟩ := List.nodup_cons.mp hnodup
    obtain ⟨session, hget⟩ := mem_iff.mp (hmem endpoint List.mem_cons_self)
    obtain ⟨hremove, heq, hsessions⟩ := h.remove_present hcapacity hget
    rw [List.foldl_cons, heq]
    refine ih hremove hnodup fun other hother => ?_
    obtain ⟨s, hs⟩ := mem_iff.mp (hmem other (List.mem_cons_of_mem _ hother))
    have hne : other ≠ endpoint := by
      rintro rfl
      exact hnotMem hother
    rw [hsessions, mem_iff]
    exact ⟨s, (get?_erase_of_ne hne).trans hs⟩

theorem Exact.sweep (now : ℕ) : (l.sweep now).Exact base capacity := by
  have hsublist : (expired l.runtime now).Sublist l.runtime.sessionsByExternal.keys :=
    List.filter_sublist.map Prod.fst
  exact h.foldl_expireOne hcapacity (hsublist.nodup (nodup_keys _))
    fun endpoint hmem => hsublist.subset hmem

end Loop

/-! ## Runs -/

/-- The gauge is exact, and the permits are those that are left. -/
structure Policy.Exact (capacity : ℕ) (p : Policy E) : Prop where
  inverse : ∀ registration r, p.runtimes.get? registration = some r → r.Inverse
  gauge : p.activeSessions = p.live
  permits : p.globalPermits + p.live ≤ capacity

namespace Policy

variable {p p' : Policy E} {capacity : ℕ}

theorem Exact.withLoop (h : p.Exact capacity) {registration : Uuid} {branch : Loop E → Loop E}
    (hbranch : ∀ base l, p.runtimes.get? registration = some l.runtime → l.Exact base capacity →
      (branch l).Exact base capacity)
    (hstep : p.withLoop registration branch = some p') : p'.Exact capacity := by
  obtain ⟨r, hget, rfl⟩ := Option.map_eq_some_iff.mp hstep
  have hlive := total_erase (fun r : Runtime E => r.sessionsByExternal.size) hget
  have hgauge := h.gauge
  have hpermits := h.permits
  rw [live, ← hlive] at hgauge hpermits
  have hloop := hbranch _ ⟨r, p.activeSessions, p.globalPermits⟩ hget
    ⟨h.inverse _ _ hget, hgauge, hpermits⟩
  refine ⟨forall_insert h.inverse hloop.inverse, ?_, ?_⟩
  · rw [live, total_insert, Nat.add_comm]
    exact hloop.gauge
  · rw [live, total_insert, Nat.add_comm (Loop.runtime _).sessionsByExternal.size]
    exact hloop.permits

theorem Exact.step (h : p.Exact capacity) (hcapacity : capacity < usizeSize) {e : Event E}
    (hstep : Step capacity p e p') (halone : e.StopsAlone p) : p'.Exact capacity := by
  obtain ⟨hstep, hadmissible⟩ := hstep
  cases e with
  | start registration timeout =>
    simp only [Policy.step] at hstep
    split_ifs at hstep with hold
    cases hstep
    have hlive := total_insert_new (fun r : Runtime E => r.sessionsByExternal.size)
      (get?_eq_none.mpr hold) ⟨timeout, ∅, ∅⟩
    refine ⟨forall_insert h.inverse ⟨nofun, nofun⟩, h.gauge.trans hlive.symm, ?_⟩
    rw [live, hlive]
    exact h.permits
  | publicDatagram registration endpoint sessionId now admitted sent =>
    exact h.withLoop (fun _ _ hget hl =>
      hl.publicDatagram hcapacity (hadmissible _ hget) endpoint now admitted sent) hstep
  | agentDatagram registration sessionId now =>
    exact h.withLoop (fun _ _ _ hl => hl.agentDatagram sessionId now) hstep
  | closeSession registration sessionId =>
    exact h.withLoop (fun _ _ _ hl => hl.closeSession hcapacity sessionId) hstep
  | sweep registration now => exact h.withLoop (fun _ _ _ hl => hl.sweep hcapacity now) hstep
  | stop registration =>
    obtain ⟨r, hget, rfl⟩ := Option.map_eq_some_iff.mp hstep
    have hlive := total_erase (fun r : Runtime E => r.sessionsByExternal.size) hget
    have hpermits := h.permits
    -- the others have no sessions, so zero is their number
    have hzero : (p.runtimes.erase registration).total
        (fun r : Runtime E => r.sessionsByExternal.size) = 0 := by
      rw [FiniteMap.total, List.sum_eq_zero_iff]
      rintro _ hmem
      obtain ⟨⟨other, r'⟩, hentry, rfl⟩ := List.mem_map.mp hmem
      rw [mem_toList, get?_erase] at hentry
      split_ifs at hentry with heq
      exact halone other r' hentry heq
    refine ⟨fun other r' hr' => h.inverse _ _ (get?_of_erase hr'), hzero.symm, ?_⟩
    simp only [live] at hpermits ⊢
    omega
  | others globalPermits =>
    cases hstep
    exact ⟨h.inverse, h.gauge, hadmissible⟩

end Policy

/-- A policy without runtimes. -/
def initial (E : Type*) (globalPermits : ℕ) : Policy E := ⟨∅, 0, globalPermits⟩

/-- **The gauge is exact in every run in which runtimes stop alone.** It is the number of live
sessions in every state reached, and never wraps. -/
theorem activeSessions_exact {capacity : ℕ} (hcapacity : capacity < usizeSize) {es : List (Event E)}
    {p : Policy E} (hrun : Run (fun p e p' => Step capacity p e p' ∧ e.StopsAlone p)
      (initial E capacity) es p) : p.activeSessions = p.live ∧ p.live ≤ capacity := by
  have hinitial : (initial E capacity).Exact capacity := ⟨nofun, rfl, le_rfl⟩
  have hexact := hrun.invariant (fun p e p' hp hstep => hp.step hcapacity hstep.1 hstep.2) hinitial
  exact ⟨hexact.gauge, (Nat.le_add_left _ _).trans hexact.permits⟩

/-- Two runtimes of a port group; a session on the second one. -/
def twoRuntimes : List (Event ℕ) :=
  [.start (Uuid.fromU128 1) 60, .start (Uuid.fromU128 2) 60,
    .publicDatagram (Uuid.fromU128 2) 7 (Uuid.fromU128 9) 0 true true]

/-- The policy after them. -/
def twoRunning : Policy ℕ where
  runtimes := (FiniteMap.insert ∅ (Uuid.fromU128 1) ⟨60, ∅, ∅⟩).insert (Uuid.fromU128 2)
    ⟨60, FiniteMap.insert ∅ 7 ⟨Uuid.fromU128 9, 0⟩, FiniteMap.insert ∅ (Uuid.fromU128 9) 7⟩
  activeSessions := 1
  globalPermits := 9

theorem run_twoRuntimes :
    Run (fun p e p' => Step 10 p e p' ∧ e.StopsAlone p) (initial ℕ 10) twoRuntimes twoRunning := by
  refine .cons ⟨⟨rfl, trivial⟩, trivial⟩ (.cons ⟨⟨rfl, trivial⟩, trivial⟩
    (.single ⟨⟨rfl, ?_⟩, trivial⟩))
  intro r hr
  obtain rfl := Option.some.inj hr
  exact List.not_mem_nil

/-- The first runtime stops, and the gauge is zero beside a live session. The session is closed, and
the gauge wraps. -/
theorem stop_wipes_gauge :
    ∃ p p' : Policy ℕ, Run (Step 10) (initial ℕ 10) (twoRuntimes ++ [.stop (Uuid.fromU128 1)]) p ∧
      Step 10 p (.closeSession (Uuid.fromU128 2) (Uuid.fromU128 9)) p' ∧
      p.activeSessions = 0 ∧ p.live = 1 ∧ p'.activeSessions = 2 ^ 64 - 1 ∧ p'.live = 0 :=
  ⟨_, _, (run_twoRuntimes.mono fun _ _ _ h => h.1).snoc ⟨rfl, trivial⟩, ⟨rfl, trivial⟩, rfl, rfl,
    by decide, rfl⟩

/-- A session, and then the stop of its runtime beside one without sessions. -/
theorem activeSessions_exact_two :
    (twoRunning.live = 1 ∧ twoRunning.activeSessions = twoRunning.live ∧ twoRunning.live ≤ 10) ∧
      ∃ p, Run (fun p e p' => Step 10 p e p' ∧ e.StopsAlone p) (initial ℕ 10)
          (twoRuntimes ++ [.stop (Uuid.fromU128 2)]) p ∧
        p.runtimes.size = 1 ∧ p.activeSessions = p.live ∧ p.live ≤ 10 := by
  have halone : (Event.stop (E := ℕ) (Uuid.fromU128 2)).StopsAlone twoRunning := by
    intro other r hr hne
    rw [twoRunning, get?_insert_of_ne hne, get?_insert] at hr
    split_ifs at hr
    · obtain rfl := Option.some.inj hr
      rfl
    · cases hr
  have hstop : Step 10 twoRunning (.stop (Uuid.fromU128 2)) _ := ⟨rfl, trivial⟩
  have hstopped := run_twoRuntimes.snoc ⟨hstop, halone⟩
  exact ⟨⟨rfl, activeSessions_exact (by decide) run_twoRuntimes⟩, _, hstopped, rfl,
    activeSessions_exact (by decide) hstopped⟩

end LinkLake.UdpTunnel
