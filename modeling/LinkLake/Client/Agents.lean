import LinkLake.Foundations.FiniteMap
import LinkLake.Foundations.Runs
import LinkLake.Foundations.Text

/-!
# The agents of a client

A client runs a task for every agent that its configuration asks for (`main.rs` of the client).
`reconcileAgents` aborts the tasks of agents that have changed or gone, and spawns those that are
missing. It does not wait for the tasks that it aborts: `abort` asks the runtime to cancel a task,
and the task may run on beside a new one until it is cancelled. What is said of tasks here is
therefore said of those that have neither ended nor been aborted (`Tasks.live`).

A task may also end on its own, as a visitor does when its local port is taken. Its handle then
stays in the map, so that no later configuration starts the agent again (`ended_stays_down`).
Otherwise the tasks follow the configuration (`agents_follow`).
-/

namespace LinkLake.Agents

open FiniteMap Text

/-! ## Configurations -/

/-- A TCP or UDP tunnel. -/
structure ManagedTunnel where
  name : String
  publicPort : UInt16
  targetAddr : String
  enabled : Bool

/-- An HTTP or TLS route. -/
structure ManagedRoute where
  name : String
  hostname : String
  targetAddr : String
  enabled : Bool

/-- The target of a secret tunnel. -/
structure ManagedSecretTunnel where
  name : String
  targetAddr : String
  enabled : Bool

/-- A SOCKS5 or HTTP proxy. -/
structure ManagedProxy where
  name : String
  publicPort : UInt16
  allowPrivateNetworks : Bool
  enabled : Bool

/-- What the server asks of a client. -/
structure ManagedClientConfig where
  tcpTunnels : List ManagedTunnel := []
  udpTunnels : List ManagedTunnel := []
  httpRoutes : List ManagedRoute := []
  tlsRoutes : List ManagedRoute := []
  secretTunnels : List ManagedSecretTunnel := []
  socks5Proxies : List ManagedProxy := []
  httpProxies : List ManagedProxy := []

/-- Whether a visitor connects directly. -/
inductive P2pPathPolicy
  | preferDirect
  | relayOnly
  | directOnly
  deriving DecidableEq, Repr

/-- A local port that leads into a secret tunnel. -/
structure SecretVisitorConfig where
  name : String
  localBind : String
  accessKey : String
  preferDirect : Bool
  pathPolicy : Option P2pPathPolicy

/-! ## Agents -/

inductive AgentKey
  | tcp (name : String) (publicPort : UInt16)
  | udp (name : String) (publicPort : UInt16)
  | http (hostname : String)
  | tls (hostname : String)
  | secretTarget (name : String)
  | secretVisitor (name : String)
  | socks5 (name : String) (publicPort : UInt16)
  | httpProxy (name : String) (publicPort : UInt16)
  deriving DecidableEq, Repr

/-- What a task runs. -/
inductive AgentSpec
  | tcp (name : String) (publicPort : UInt16) (target : String)
  | udp (name : String) (publicPort : UInt16) (target : String)
  | http (name hostname target : String)
  | tls (name hostname target : String)
  | secretTarget (name target : String)
  | secretVisitor (name localBind accessKey : String) (pathPolicy : P2pPathPolicy)
  | socks5 (name : String) (publicPort : UInt16) (allowPrivateNetworks : Bool)
  | httpProxy (name : String) (publicPort : UInt16) (allowPrivateNetworks : Bool)
  deriving DecidableEq, Repr

/-- The key under which an agent is registered. -/
def AgentSpec.key : AgentSpec → AgentKey
  | .tcp name publicPort _ => .tcp name publicPort
  | .udp name publicPort _ => .udp name publicPort
  | .http _ hostname _ => .http hostname
  | .tls _ hostname _ => .tls hostname
  | .secretTarget name _ => .secretTarget name
  | .secretVisitor name _ _ _ => .secretVisitor name
  | .socks5 name publicPort _ => .socks5 name publicPort
  | .httpProxy name publicPort _ => .httpProxy name publicPort

def toAsciiLowercase (s : String) : String := String.ofList (lower s.toList)

section Follow

variable (config : ManagedClientConfig) (visitors : List SecretVisitorConfig)

/-- The agents in the order in which `agentSpecs` inserts them. -/
def listedSpecs : List AgentSpec := List.flatten [
  (config.tcpTunnels.filter (·.enabled)).map fun t => .tcp t.name t.publicPort t.targetAddr,
  (config.udpTunnels.filter (·.enabled)).map fun t => .udp t.name t.publicPort t.targetAddr,
  (config.httpRoutes.filter (·.enabled)).map fun route =>
    .http route.name (toAsciiLowercase route.hostname) route.targetAddr,
  (config.tlsRoutes.filter (·.enabled)).map fun route =>
    .tls route.name (toAsciiLowercase route.hostname) route.targetAddr,
  (config.secretTunnels.filter (·.enabled)).map fun t => .secretTarget t.name t.targetAddr,
  visitors.map fun visitor => .secretVisitor visitor.name visitor.localBind visitor.accessKey
    (visitor.pathPolicy.getD (if visitor.preferDirect then .preferDirect else .relayOnly)),
  (config.socks5Proxies.filter (·.enabled)).map fun proxy =>
    .socks5 proxy.name proxy.publicPort proxy.allowPrivateNetworks,
  (config.httpProxies.filter (·.enabled)).map fun proxy =>
    .httpProxy proxy.name proxy.publicPort proxy.allowPrivateNetworks]

/-- The agents that are wanted. -/
def agentSpecs : FiniteMap AgentKey AgentSpec :=
  (listedSpecs config visitors).foldl (fun specs spec => specs.insert spec.key spec) ∅

/-! ## Tasks -/

/-- An entry of the map. -/
structure RunningAgent where
  spec : AgentSpec
  /-- The handle of the task. -/
  task : ℕ
  deriving DecidableEq, Repr

/-- The map of agents, and what has become of the tasks. -/
structure Tasks where
  agents : FiniteMap AgentKey RunningAgent := ∅
  /-- The tasks that have not ended. -/
  running : FiniteMap ℕ AgentSpec := ∅
  /-- The handles on which `abort` has been called. -/
  aborted : List ℕ := []
  /-- How many tasks have been spawned. -/
  spawned : ℕ := 0

/-- The tasks that have neither ended nor been aborted. -/
def Tasks.live (s : Tasks) : FiniteMap ℕ AgentSpec :=
  s.running.filter fun task _ => !s.aborted.contains task

/-- Abort the tasks of agents that are not wanted any more. They are not waited for. -/
def Tasks.retain (desired : FiniteMap AgentKey AgentSpec) (s : Tasks) : Tasks :=
  let keep key (running : RunningAgent) := desired.get? key == some running.spec
  { s with
    agents := s.agents.filter keep
    aborted := s.aborted ++ (s.agents.filter fun key running => !keep key running).toList.map
      fun (_, running) => running.task }

/-- Spawn the task of an agent, and register it. -/
def Tasks.spawn (s : Tasks) (entry : AgentKey × AgentSpec) : Tasks :=
  { s with
    agents := s.agents.insert entry.1 ⟨entry.2, s.spawned⟩
    running := s.running.insert s.spawned entry.2
    spawned := s.spawned + 1 }

/-- Spawn the task of an agent that is not registered. -/
def Tasks.spawnMissing (s : Tasks) (entry : AgentKey × AgentSpec) : Tasks :=
  if entry.1 ∈ s.agents then s else s.spawn entry

/-- A new configuration. -/
def Tasks.reconcileAgents (s : Tasks) : Tasks :=
  (agentSpecs config visitors).toList.foldl spawnMissing (s.retain (agentSpecs config visitors))

/-- What happens to a client. -/
inductive Event
  | reconcile (config : ManagedClientConfig) (visitors : List SecretVisitorConfig)
  | ended (task : ℕ)

inductive Step : Tasks → Event → Tasks → Prop
  | reconcile (s config visitors) :
      Step s (.reconcile config visitors) (s.reconcileAgents config visitors)
  /-- A task ends, on its own or because it has been aborted. -/
  | ended {s : Tasks} {task : ℕ} (h : task ∈ s.running) :
      Step s (.ended task) { s with running := s.running.erase task }

/-! ## What the calls keep -/

variable {config visitors} {s s' : Tasks} {desired : FiniteMap AgentKey AgentSpec}
  {spec : AgentSpec} {task : ℕ} {es : List Event}

theorem key_of_agentSpecs :
    ∀ key spec, (agentSpecs config visitors).get? key = some spec → spec.key = key := by
  unfold agentSpecs
  induction listedSpecs config visitors using List.reverseRecOn with
  | nil => nofun
  | append_singleton specs spec ih =>
    rw [List.foldl_append]
    exact forall_insert ih rfl

theorem get?_live : s.live.get? task = some spec ↔
    s.running.get? task = some spec ∧ task ∉ s.aborted := by
  simp [Tasks.live, get?_filter, Option.filter_eq_some_iff]

/-- A live task is the registered one of its agent, and handles are not used twice. -/
structure Sound (s : Tasks) : Prop where
  owned : ∀ task spec, s.live.get? task = some spec → s.agents.get? spec.key = some ⟨spec, task⟩
  registered : ∀ key running, s.agents.get? key = some running → running.task < s.spawned ∧
    ∀ key' running', s.agents.get? key' = some running' → running.task = running'.task → key = key'
  aborted : ∀ task ∈ s.aborted, task < s.spawned

theorem get?_retain_agents {key : AgentKey} {running : RunningAgent} :
    (s.retain desired).agents.get? key = some running ↔
      s.agents.get? key = some running ∧ desired.get? key = some running.spec := by
  simp [Tasks.retain, get?_filter, Option.filter_eq_some_iff]

theorem mem_retain_aborted : task ∈ (s.retain desired).aborted ↔ task ∈ s.aborted ∨
    ∃ key running, (s.agents.get? key = some running ∧ desired.get? key ≠ some running.spec) ∧
      running.task = task := by
  simp [Tasks.retain, mem_toList, get?_filter, Option.filter_eq_some_iff]

theorem get?_retain_live :
    (s.retain desired).live.get? task = some spec ↔ s.live.get? task = some spec ∧
      ∀ key running, s.agents.get? key = some running → running.task = task →
        desired.get? key = some running.spec := by
  rw [get?_live, get?_live, mem_retain_aborted]
  grind [Tasks.retain]

theorem Sound.retain (h : Sound s) : Sound (s.retain desired) where
  owned task spec hlive := by
    obtain ⟨hlive, hkeep⟩ := get?_retain_live.mp hlive
    have hget := h.owned task spec hlive
    exact get?_retain_agents.mpr ⟨hget, hkeep _ _ hget rfl⟩
  registered key running hget := by
    obtain ⟨hissued, hdistinct⟩ := h.registered key running (get?_retain_agents.mp hget).1
    exact ⟨hissued, fun key' running' hget' => hdistinct _ _ (get?_retain_agents.mp hget').1⟩
  aborted := by
    rintro task hmem
    rcases mem_retain_aborted.mp hmem with hmem | ⟨key, running, ⟨hget, -⟩, rfl⟩
    · exact h.aborted task hmem
    · exact (h.registered key running hget).1

theorem Sound.live_retain (h : Sound s) (hlive : s.live.get? task = some spec)
    (hdesired : desired.get? spec.key = some spec) :
    (s.retain desired).live.get? task = some spec := by
  refine get?_retain_live.mpr ⟨hlive, fun key running hget htask => ?_⟩
  have howned := h.owned task spec hlive
  obtain rfl := (h.registered key running hget).2 _ _ howned htask
  cases hget.symm.trans howned
  exact hdesired

theorem Sound.get?_live_spawn (h : Sound s) (entry : AgentKey × AgentSpec) (task : ℕ) :
    (s.spawn entry).live.get? task = (s.live.insert s.spawned entry.2).get? task := by
  by_cases htask : task = s.spawned
  · have hfresh : s.spawned ∉ s.aborted := fun hmem => (h.aborted _ hmem).false
    simp [Tasks.live, Tasks.spawn, get?_filter, htask, hfresh]
  · simp [Tasks.live, Tasks.spawn, get?_filter, get?_insert_of_ne htask]

theorem Sound.live_spawn (h : Sound s) {entry : AgentKey × AgentSpec}
    (hget : s.live.get? task = some spec) : (s.spawn entry).live.get? task = some spec := by
  rw [h.get?_live_spawn, get?_insert_of_ne (h.registered _ _ (h.owned task spec hget)).1.ne]
  exact hget

theorem Sound.spawn (h : Sound s) {entry : AgentKey × AgentSpec} (hkey : entry.2.key = entry.1)
    (hmem : entry.1 ∉ s.agents) : Sound (s.spawn entry) where
  owned := by
    simp only [h.get?_live_spawn]
    refine forall_insert (fun task spec hget => ?_) ?_
    · have howned := h.owned task spec hget
      refine (get?_insert_of_ne fun heq => ?_).trans howned
      exact hmem (heq ▸ mem_of_get? howned)
    · rw [hkey]
      exact get?_insert_self _ _ _
  registered := by
    refine forall_insert (fun key running hget => ?_) ⟨Nat.lt_succ_self _, ?_⟩
    · -- the new handle is larger than those in use
      obtain ⟨hold, hdistinct⟩ := h.registered key running hget
      exact ⟨hold.trans (Nat.lt_succ_self _), forall_insert hdistinct fun heq => absurd heq hold.ne⟩
    · refine forall_insert (fun key running hget heq => ?_) fun _ => rfl
      exact absurd heq (h.registered key running hget).1.ne'
  aborted task hmem := (h.aborted task hmem).trans (Nat.lt_succ_self _)

/-- What the loop over the agents has reached. -/
structure Spawning (desired : FiniteMap AgentKey AgentSpec) (s s' : Tasks) : Prop where
  sound : Sound s'
  live : ∀ task spec, s.live.get? task = some spec → s'.live.get? task = some spec
  wanted : ∀ key running, s'.agents.get? key = some running → desired.get? key = some running.spec ∧
    (s.agents.get? key = some running ∨ s'.live.get? running.task = some running.spec)

theorem Spawning.spawnMissing (h : Spawning desired s s') {entry : AgentKey × AgentSpec}
    (hkey : entry.2.key = entry.1) (hentry : desired.get? entry.1 = some entry.2) :
    Spawning desired s (s'.spawnMissing entry) := by
  unfold Tasks.spawnMissing
  split_ifs with hmem
  · exact h
  refine ⟨h.sound.spawn hkey hmem, fun task spec hget => h.sound.live_spawn (h.live task spec hget),
    forall_insert (fun key running hget => ?_) ⟨hentry, .inr ?_⟩⟩
  · exact (h.wanted key running hget).imp_right (Or.imp_right h.sound.live_spawn)
  · rw [h.sound.get?_live_spawn]
    exact get?_insert_self _ _ _

theorem spawning_reconcileAgents (h : Sound s) :
    Spawning (agentSpecs config visitors) (s.retain (agentSpecs config visitors))
      (s.reconcileAgents config visitors) := by
  refine List.foldlRecOn _ _ ⟨h.retain, fun _ _ => id, fun key running hget => ?_⟩ ?_
  · exact ⟨(get?_retain_agents.mp hget).2, .inl hget⟩
  · rintro s' hspawning ⟨key, spec⟩ hentry
    have hget := mem_toList.mp hentry
    exact hspawning.spawnMissing (key_of_agentSpecs key spec hget) hget

theorem mem_foldl_spawnMissing {key : AgentKey} (entries : List (AgentKey × AgentSpec))
    (s : Tasks) (h : key ∈ s.agents ∨ key ∈ entries.map Prod.fst) :
    key ∈ (entries.foldl Tasks.spawnMissing s).agents := by
  induction entries generalizing s with
  | nil => simpa using h
  | cons entry entries ih =>
    refine ih _ ?_
    rw [List.map_cons, List.mem_cons] at h
    unfold Tasks.spawnMissing
    split_ifs <;> grind [mem_insert, Tasks.spawn]

theorem sound_of_run (hrun : Run Step {} es s) : Sound s := by
  refine hrun.invariant (fun s e s' h hstep => ?_) ⟨nofun, nofun, nofun⟩
  cases hstep with
  | reconcile config visitors => exact (spawning_reconcileAgents h).sound
  | ended hlive =>
    refine ⟨fun task spec hget => h.owned task spec ?_, h.registered, h.aborted⟩
    obtain ⟨hget, hmem⟩ := get?_live.mp hget
    exact get?_live.mpr ⟨get?_of_erase hget, hmem⟩

/-- **The tasks follow the configuration, unless they end on their own.** After a call every task
that has not ended runs an agent of the configuration or has been aborted, and live tasks of agents
that were wanted before go on. Every agent has exactly one live task, if it was not registered
before with a task that has ended. -/
theorem agents_follow (hrun : Run Step {} es s) :
    (∀ key spec, (agentSpecs config visitors).get? key = some spec →
      (∀ task, s.agents.get? key = some ⟨spec, task⟩ → s.live.get? task = some spec) →
      ∃! task, (s.reconcileAgents config visitors).live.get? task = some spec) ∧
    (∀ task spec, (s.reconcileAgents config visitors).running.get? task = some spec →
      (agentSpecs config visitors).get? spec.key = some spec ∨
        task ∈ (s.reconcileAgents config visitors).aborted) ∧
    ∀ task spec, s.live.get? task = some spec →
      (agentSpecs config visitors).get? spec.key = some spec →
      (s.reconcileAgents config visitors).live.get? task = some spec := by
  have hsound := sound_of_run hrun
  have hspawning : Spawning _ _ (s.reconcileAgents config visitors) :=
    spawning_reconcileAgents hsound
  refine ⟨fun key spec hdesired hlive => ?_, fun task spec hget => ?_,
    fun task spec hlive hdesired => hspawning.live _ _ (hsound.live_retain hlive hdesired)⟩
  · obtain rfl := key_of_agentSpecs key spec hdesired
    have hmem : spec.key ∈ (s.reconcileAgents config visitors).agents :=
      mem_foldl_spawnMissing _ _ (.inr (mem_of_get? hdesired))
    obtain ⟨⟨spec', task⟩, hget⟩ := mem_iff.mp hmem
    obtain ⟨hspec, hrunning⟩ := hspawning.wanted _ _ hget
    obtain rfl : spec = spec' := Option.some.inj (hdesired.symm.trans hspec)
    refine ⟨task, ?_, fun other hother => ?_⟩
    · obtain hold | hnew := hrunning
      · have hold := hlive task (get?_retain_agents.mp hold).1
        exact hspawning.live _ _ (hsound.live_retain hold hdesired)
      · exact hnew
    · cases (hspawning.sound.owned other spec hother).symm.trans hget
      rfl
  · refine or_iff_not_imp_right.mpr fun haborted => ?_
    have hlive := get?_live.mpr ⟨hget, haborted⟩
    exact (hspawning.wanted _ _ (hspawning.sound.owned task spec hlive)).1

/-- The task of the agent has ended, and its handle is still in the map. -/
structure Down (spec : AgentSpec) (task : ℕ) (s : Tasks) : Prop where
  agent : s.agents.get? spec.key = some ⟨spec, task⟩
  ended : task ∉ s.running
  issued : task < s.spawned

theorem Down.spawnMissing (h : Down spec task s) (entry : AgentKey × AgentSpec) :
    Down spec task (s.spawnMissing entry) := by
  unfold Tasks.spawnMissing
  split_ifs with hmem
  · exact h
  refine ⟨(get?_insert_of_ne fun heq => ?_).trans h.agent, ?_, h.issued.trans (Nat.lt_succ_self _)⟩
  · exact hmem (heq ▸ mem_of_get? h.agent)
  · simp [Tasks.spawn, h.ended, h.issued.ne]

theorem Step.down {e : Event} (hstep : Step s e s') (h : Down spec task s)
    (hwanted : ∀ config visitors, e = .reconcile config visitors →
      (agentSpecs config visitors).get? spec.key = some spec) : Down spec task s' := by
  cases hstep with
  | reconcile config visitors =>
    exact List.foldlRecOn _ _ ⟨get?_retain_agents.mpr ⟨h.agent, hwanted _ _ rfl⟩, h.ended,
      h.issued⟩ fun _ hs entry _ => hs.spawnMissing entry
  | ended => exact ⟨h.agent, by simp [h.ended], h.issued⟩

/-- **An agent whose task has ended on its own stays down**, as long as the configurations ask for
it unchanged. -/
theorem ended_stays_down {past : List Event} (hpast : Run Step {} past s)
    (hlive : s.live.get? task = some spec) (hrun : Run Step s (.ended task :: es) s')
    (hwanted : ∀ config visitors, .reconcile config visitors ∈ es →
      (agentSpecs config visitors).get? spec.key = some spec) (other : ℕ) :
    s'.live.get? other ≠ some spec := by
  intro hother
  have howned := (sound_of_run (hpast.append hrun)).owned other spec hother
  obtain ⟨s1, hended, hrun⟩ := hrun.of_cons
  have hsound := sound_of_run hpast
  have hget := hsound.owned task spec hlive
  have hdown : Down spec task s1 := by
    cases hended
    exact ⟨hget, by simp, (hsound.registered _ _ hget).1⟩
  have hdown' : Down spec task s' := by
    refine hrun.invariant_on (p := (· ∈ es)) (fun _ e _ he h hstep => ?_) (fun _ => id) hdown
    exact hstep.down h fun config visitors heq => hwanted config visitors (heq ▸ he)
  cases howned.symm.trans hdown'.agent
  exact hdown'.ended (mem_of_get? (get?_live.mp hother).1)

end Follow

namespace Sample

/-- A visitor on a local port that is taken. -/
def visitors : List SecretVisitorConfig := [⟨"db", "127.0.0.1:5432", "key", true, none⟩]

def agent : AgentSpec := .secretVisitor "db" "127.0.0.1:5432" "key" .preferDirect

end Sample

open Sample

/-- The first configuration starts its agents. -/
theorem agents_follow_first :
    ∃! task, (Tasks.reconcileAgents {} visitors {}).live.get? task = some agent :=
  (agents_follow (.nil _)).1 agent.key _ (by decide +kernel) nofun

/-- A visitor that has ended has no task after the next call, and one that is not wanted any more
still runs after the call that aborts it. -/
theorem agents_do_not_follow :
    (∃ s, Run Step {} [.reconcile {} visitors, .ended 0, .reconcile {} visitors] s ∧
      (agentSpecs {} visitors).get? agent.key = some agent ∧ s.live.toList = []) ∧
    ∃ s, Run Step {} [.reconcile {} visitors, .reconcile {} []] s ∧
      (agentSpecs {} []).get? agent.key = none ∧ s.running.get? 0 = some agent := by
  have hstarted : (Tasks.reconcileAgents {} visitors {}).running.get? 0 = some agent := by
    decide +kernel
  refine ⟨⟨_, .cons (.reconcile {} {} visitors) (.cons (.ended (mem_of_get? hstarted))
    (.single (.reconcile _ {} visitors))), by decide +kernel, by decide +kernel⟩, ?_⟩
  exact ⟨_, .cons (.reconcile {} {} visitors) (.single (.reconcile _ {} [])), by decide +kernel,
    by decide +kernel⟩

/-- The same configuration does not start a visitor again that found its port taken. -/
theorem ended_stays_down_visitor : ∃ s s', Run Step {} [.reconcile {} visitors] s ∧
    Run Step s [.ended 0, .reconcile {} visitors] s' ∧
      ∀ other, s'.live.get? other ≠ some agent := by
  have hpast : Run Step {} _ _ := .single (.reconcile {} {} visitors)
  have hlive : (Tasks.reconcileAgents {} visitors {}).live.get? 0 = some agent := by
    decide +kernel
  have hrun : Run Step _ _ _ :=
    .cons (.ended (mem_of_get? (get?_live.mp hlive).1)) (.single (.reconcile _ {} visitors))
  refine ⟨_, _, hpast, hrun, ended_stays_down hpast hlive hrun fun config visitors' hmem => ?_⟩
  cases List.mem_singleton.mp hmem
  decide +kernel

end LinkLake.Agents
