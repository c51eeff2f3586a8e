import Gearman.Client.Connect
import Gearman.Client.Verify.Actor
import Gearman.Lib.Machine

/-!
# Connecting by unique id hides no live server

An actor sets `connected` before `attempted`, so whoever has seen `attempted`
finds a server whose attempt succeeded connected, until its `actor_loop` ends.
The scans of `ClientBuilder::connect` only have to see each flag once: neither
is taken back in between without the end of an `actor_loop`.
-/

namespace Gearman.Client

/-! ## One server -/

namespace Server

/-- A server whose first attempt has not finished is not there yet; one whose
first attempt succeeded is connected until its `actor_loop` ends. -/
structure Inv (s : Server) : Prop where
  early : s.first = none → s.actor.attempted = false ∧
    match s.actor.phase with
    | .connecting | .negotiate _ | .negotiated _ => True
    | _ => False
  live : s.first = some true → s.ended = false →
    match s.actor.phase with
    | .ready _ => s.actor.attempted = false
    | .entering _ | .looping _ _ => s.actor.connected = true
    | _ => False

theorem inv_new : new.Inv where
  early _ := ⟨rfl, trivial⟩
  live h := by cases h

/-- Whoever has seen `attempted` finds a live server connected. -/
theorem Inv.connected {s : Server} (hs : s.Inv) (hattempted : s.actor.attempted = true) :
    s.first ≠ none ∧ (s.first = some true → s.ended = false → s.actor.connected = true) := by
  refine ⟨fun hfirst => ?_, fun hfirst hended => ?_⟩
  · rw [(hs.early hfirst).1] at hattempted
    cases hattempted
  · have hlive := hs.live hfirst hended
    split at hlive
    · rw [hlive] at hattempted
      cases hattempted
    · exact hlive
    · exact hlive
    · exact hlive.elim

theorem iterate_flags (a : Actor) (conn : Connection) (s : LoopState) (j : LoopInput) :
    (a.iterate conn s j).1.connected = a.connected ∧
      (a.iterate conn s j).1.attempted = a.attempted ∧
      ((∃ conn' s', (a.iterate conn s j).1.phase = .looping conn' s') ∨
        ∃ outcome, (a.iterate conn s j).1.phase = .ended outcome) := by
  unfold Actor.iterate
  split
  · exact ⟨rfl, rfl, .inl ⟨_, _, rfl⟩⟩
  · exact ⟨rfl, rfl, .inr ⟨_, rfl⟩⟩

/-- A step during the first attempt. -/
theorem inv_step_early {withExceptions : Bool} {s : Server} {i : ActorInput} {a' : Actor}
    {es : List Effect} (hs : s.Inv) (hfirst : s.first = none)
    (h : s.actor.Steps withExceptions i a' es) : (s.after a').Inv := by
  obtain ⟨hattempted, hphase⟩ := hs.early hfirst
  have still : a'.attempted = false → a'.phase = s.actor.phase → (s.after a').Inv := by
    intro hatt hp
    refine ⟨fun _ => ⟨hatt, ?_⟩, fun hlive => ?_⟩
    · rw [after, hp]
      exact hphase
    · rw [after, hfirst, hp] at hlive
      split at hphase <;> rename_i heq
      · rw [heq] at hlive
        cases hlive
      · rw [heq] at hlive
        cases hlive
      · rw [heq] at hlive
        cases hlive
      · exact hphase.elim
  cases h with
  | queue _ | dropSenders => exact still hattempted rfl
  | refused _ | unasked _ _ | unnegotiated _ _ =>
    refine ⟨fun hnone => ?_, fun hlive => ?_⟩
    · rw [after, hfirst] at hnone
      cases hnone
    · rw [after, hfirst] at hlive
      cases hlive
  | negotiate _ _ | asked _ _ =>
    refine ⟨fun _ => ⟨hattempted, trivial⟩, fun hlive => ?_⟩
    rw [after, hfirst] at hlive
    cases hlive
  | connected _ _ | negotiated _ _ =>
    refine ⟨fun hnone => ?_, fun _ _ => hattempted⟩
    rw [after, hfirst] at hnone
    cases hnone
  | recv hp | tick hp | command hp _ | close hp _ _ | ready hp | enter hp | dropped hp | lost hp
  | settle hp | slept hp =>
    rw [hp] at hphase
    exact hphase.elim

/-- A step once the first attempt has finished. -/
theorem inv_step_finished {withExceptions : Bool} {s : Server} {i : ActorInput} {a' : Actor}
    {es : List Effect} {first : Bool} (hs : s.Inv) (hfirst : s.first = some first)
    (h : s.actor.Steps withExceptions i a' es) : (s.after a').Inv := by
  have hafter : (s.after a').first = some first := by rw [after, hfirst]; rfl
  refine ⟨fun hnone => ?_, fun hlive hended => ?_⟩
  · rw [hafter] at hnone
    cases hnone
  · rw [hafter, ← hfirst] at hlive
    obtain ⟨hbefore, hgoing⟩ : s.ended = false ∧ a'.phase.isEnded = false := by
      simpa [after] using hended
    have hphase := hs.live hlive hbefore
    have iterates : ∀ (a : Actor) conn st j, a.connected = true →
        (a.iterate conn st j).1.phase.isEnded = false →
        match (a.iterate conn st j).1.phase with
        | .ready _ => (a.iterate conn st j).1.attempted = false
        | .entering _ | .looping _ _ => (a.iterate conn st j).1.connected = true
        | _ => False := by
      intro a conn st j hup hgoing
      obtain ⟨hconnected, -, ⟨conn', st', hp⟩ | ⟨outcome, hp⟩⟩ := iterate_flags a conn st j
      · rw [hp, hconnected]
        exact hup
      · rw [hp] at hgoing
        cases hgoing
    cases h with
    | queue _ | dropSenders => exact hphase
    | ready hp => rfl
    | enter hp =>
      rw [hp] at hphase
      exact hphase
    | recv hp | tick hp | command hp _ | close hp _ _ =>
      rw [hp] at hphase
      exact iterates _ _ _ _ hphase hgoing
    | refused hp | negotiate hp _ | connected hp _ | asked hp _ | unasked hp _ | negotiated hp _
    | unnegotiated hp _ | dropped hp | lost hp | settle hp | slept hp =>
      rw [hp] at hphase
      exact hphase.elim

theorem inv_step {withExceptions : Bool} {s : Server} {i : ActorInput} {a' : Actor}
    {es : List Effect} (hs : s.Inv) (h : s.actor.Steps withExceptions i a' es) :
    (s.after a').Inv := by
  cases hfirst : s.first with
  | none => exact inv_step_early hs hfirst h
  | some first => exact inv_step_finished hs hfirst h

theorem attempted_step {withExceptions : Bool} {a a' : Actor} {i : ActorInput} {es : List Effect}
    (h : a.Steps withExceptions i a' es) (ha : a.attempted = true) : a'.attempted = true := by
  cases h with
  | recv _ | tick _ | command _ _ | close _ _ _ => rw [(iterate_flags _ _ _ _).2.1]; exact ha
  | enter _ | settle _ => rfl
  | _ => exact ha

end Server

namespace ConnectRun

/-! ## The scans -/

/-- The first attempt of this server succeeded and no `actor_loop` of it has ended. -/
def Live (r : ConnectRun) (server : Nat) : Prop :=
  ∃ s, r.servers[server]? = some s ∧ s.first = some true ∧ s.ended = false

/-- What the waiting loop knows where it stands. -/
structure Inv (r : ConnectRun) : Prop where
  servers : ∀ s ∈ r.servers, s.Inv
  scanned : ∀ k, r.pc = .allAttempted k →
    ∀ j s, j < k → r.servers[j]? = some s → s.actor.attempted = true
  late : ∀ k, r.pc = .lastHealthy k → r.late = true
  returned : r.pc = .returned (.ok ()) true → ∀ s ∈ r.servers, s.actor.attempted = true

theorem inv_start (n : Nat) : (start n).Inv := by
  refine ⟨fun s hs => ?_, fun k hk => ?_, fun k hk => ?_, fun hr => ?_⟩
  · rw [List.eq_of_mem_replicate hs]
    exact Server.inv_new
  all_goals
    unfold start at *
    split at * <;> simp at *

variable {withExceptions : Bool} {r r' : ConnectRun}

/-- A point of the loop that carries no knowledge. -/
theorem inv_goto (hr : r.Inv) {pc : ConnectPc} (hscan : ∀ k, pc ≠ .allAttempted k)
    (hlast : ∀ k, pc ≠ .lastHealthy k) (hok : pc ≠ .returned (.ok ()) true) :
    Inv { r with pc := pc } where
  servers := hr.servers
  scanned k hk := absurd hk (hscan k)
  late k hk := absurd hk (hlast k)
  returned h := absurd h hok

theorem inv_allAttempted (hr : r.Inv) {k : Nat}
    (hscanned : ∀ j s, j < k → r.servers[j]? = some s → s.actor.attempted = true) :
    Inv { r with pc := .allAttempted k } where
  servers := hr.servers
  scanned k' hk' := by
    cases hk'
    exact hscanned
  late k' hk' := by cases hk'
  returned h := by cases h

/-- The scan has come to its end. -/
theorem inv_returned (hr : r.Inv) {result : Except GearmanError Unit} {inTime : Bool}
    (hall : ∀ s ∈ r.servers, s.actor.attempted = true) :
    Inv { r with pc := .returned result inTime } where
  servers := hr.servers
  scanned k hk := by cases hk
  late k hk := by cases hk
  returned _ := hall

theorem inv_lastHealthy (hr : r.Inv) {k : Nat} (hlate : r.late = true) :
    Inv { r with pc := .lastHealthy k } where
  servers := hr.servers
  scanned k' hk' := by cases hk'
  late _ _ := hlate
  returned h := by cases h

theorem inv_connect (hr : r.Inv) : Inv { r with pc := r.next .byUnique } := by
  unfold next
  split
  · split
    · split
      · exact inv_allAttempted hr fun j s hj => absurd hj (Nat.not_lt_zero j)
      · exact inv_goto hr (by simp) (by simp) (by simp)
    · exact inv_goto hr (by simp) (by simp) (by simp)
  · rename_i k hpc
    have hscanned := hr.scanned k hpc
    split
    · rename_i s hk
      split
      · rename_i hattempted
        refine inv_allAttempted hr fun j t hj ht => ?_
        rcases Nat.lt_succ_iff_lt_or_eq.mp hj with hlt | rfl
        · exact hscanned j t hlt ht
        · rw [hk] at ht
          cases ht
          exact hattempted
      · exact inv_goto hr (by simp) (by simp) (by simp)
    · rename_i hend
      refine inv_returned hr fun s hs => ?_
      obtain ⟨j, hj⟩ := List.mem_iff_getElem?.mp hs
      obtain ⟨hlt, -⟩ := List.getElem?_eq_some_iff.mp hj
      have hlength := List.getElem?_eq_none_iff.mp hend
      exact hscanned j s (by omega) hj
  · split
    · exact inv_lastHealthy hr ‹_›
    · exact inv_goto hr (by simp) (by simp) (by simp)
  · rename_i k hpc
    -- behind the deadline no return is in time
    have hlate := hr.late k hpc
    split
    · split
      · exact inv_goto hr (by simp) (by simp) (by simp [hlate])
      · exact inv_lastHealthy hr hlate
    · exact inv_goto hr (by simp) (by simp) (by simp)
  · exact inv_goto hr (by simp) (by simp) (by simp)
  · rename_i result inTime hpc
    have hsame : { r with pc := .returned result inTime } = r := by rw [← hpc]
    rw [hsame]
    exact hr

/-- A step of one actor takes back no flag that a scan has seen set. -/
theorem inv_actor (hr : r.Inv) {k : Nat} {s : Server} {i : ActorInput} {a' : Actor}
    {es : List Effect} (hk : r.servers[k]? = some s)
    (h : s.actor.Steps withExceptions i a' es) :
    Inv { r with servers := r.servers.set k (s.after a') } := by
  have hs := List.mem_of_getElem? hk
  have hmem : ∀ t ∈ r.servers.set k (s.after a'), t ∈ r.servers ∨ t = s.after a' := by
    intro t ht
    exact List.mem_or_eq_of_mem_set ht
  refine ⟨fun t ht => ?_, fun m hm j t hj ht => ?_, hr.late, fun hok t ht => ?_⟩
  · rcases hmem t ht with ht | rfl
    · exact hr.servers t ht
    · exact Server.inv_step (hr.servers s hs) h
  · have hscanned := hr.scanned m hm j
    by_cases hjk : k = j
    · subst hjk
      obtain ⟨hlt, -⟩ := List.getElem?_eq_some_iff.mp hk
      rw [List.getElem?_set_self hlt] at ht
      cases ht
      exact Server.attempted_step h (hscanned s hj hk)
    · rw [List.getElem?_set_ne hjk] at ht
      exact hscanned t hj ht
  · rcases hmem t ht with ht | rfl
    · exact hr.returned hok t ht
    · exact Server.attempted_step h (hr.returned hok s hs)

theorem inv_step {act : ConnectAct} (hr : r.Inv)
    (h : r.step withExceptions .byUnique act = some r') : r'.Inv := by
  cases act with
  | actor k i =>
    cases hk : r.servers[k]? with
    | none => simp [step, hk] at h
    | some s =>
      simp only [step, hk] at h
      obtain ⟨⟨a', es⟩, hstep, rfl⟩ := Option.map_eq_some_iff.mp h
      exact inv_actor hr hk (Actor.steps_of_step hstep)
  | connect =>
    cases h
    exact inv_connect hr
  | expire =>
    cases h
    exact ⟨hr.servers, hr.scanned, fun _ _ => rfl, hr.returned⟩

/-- **Connecting by unique id hides no live server.** In every state of a run in
which `ClientBuilder::connect` has returned `Ok` before its deadline, every
server has finished its first attempt; every server whose attempt succeeded is
healthy as long as its `actor_loop` has not ended; and `select_for_submit`,
whatever it reads of the other servers, keeps a unique id on such a server
whenever the ring would pick it with more servers up. -/
theorem connect_hides_no_live_server (withExceptions : Bool) (md5 : Md5) {n : Nat}
    {acts : List ConnectAct} {r : ConnectRun}
    (h : Machine.run (step withExceptions .byUnique) (start n) acts = some r)
    (hok : r.pc = .returned (.ok ()) true) :
    (∀ s ∈ r.servers, s.first ≠ none) ∧
    (∀ k, r.Live k → r.isHealthy k = true) ∧
    ∀ (pool : ServerPool) (ring : Ring) (unique : String) (isHealthy up : Nat → Bool) (k : Nat),
      pool.ring = some ring → unique ≠ "" → (∀ j, r.Live j → isHealthy j = true) →
      (∀ j, isHealthy j = true → up j = true) → r.Live k →
      ring.select md5 (asBytes unique) up = some k →
      (pool.selectForSubmit md5 isHealthy (some unique)).1 = some k := by
  have hr : r.Inv := Machine.invariant (fun _ _ _ hr hs => inv_step hr hs) (inv_start n) h
  have hattempted := hr.returned hok
  refine ⟨fun s hs => ?_, fun k ⟨s, hk, hfirst, hended⟩ => ?_, ?_⟩
  · exact ((hr.servers s hs).connected (hattempted s hs)).1
  · have hs := List.mem_of_getElem? hk
    rw [isHealthy, hk]
    exact ((hr.servers s hs).connected (hattempted s hs)).2 hfirst hended
  · intro pool ring unique isHealthy up k hring hunique hseen hup hlive hselect
    rw [ServerPool.selectForSubmit_unique md5 hring hunique]
    exact Ring.select_mono md5 hup hselect (hseen k hlive)

/-- Two servers come up one after the other. The first scan finds the second one
still connecting. -/
def bothUp : List ConnectAct :=
  [.actor 0 (.connect true), .actor 0 .go, .actor 0 .go, .connect, .connect, .connect, .connect,
    .connect, .actor 1 (.connect true), .connect, .actor 1 .go, .actor 1 .go, .connect, .connect,
    .connect, .connect]

/-- The MD5 digest of `a`. -/
def md5OfA : Md5 := fun _ =>
  #v[0x0c, 0xc1, 0x75, 0xb9, 0xc0, 0xf1, 0xb6, 0xa8, 0x31, 0xc3, 0x99, 0xe2, 0x69, 0x77, 0x26, 0x61]

def twoPoints : Ring := ⟨[(0x40000000, 0), (0xC0000000, 1)], by decide⟩

theorem connect_hides_no_live_server_bothUp :
    ∃ r, Machine.run (step false .byUnique) (start 2) bothUp = some r ∧
      r.pc = .returned (.ok ()) true ∧
      ((⟨2, 0, some twoPoints⟩ : ServerPool).selectForSubmit md5OfA r.isHealthy (some "a")).1 =
        some 1 := by
  have hrun : Machine.run (step false .byUnique) (start 2) bothUp = some _ := rfl
  obtain ⟨-, hhealthy, hkept⟩ := connect_hides_no_live_server false md5OfA hrun rfl
  refine ⟨_, hrun, rfl, ?_⟩
  apply hkept ⟨2, 0, some twoPoints⟩ twoPoints "a" _ (fun _ => true) 1 rfl (by decide) hhealthy
    (fun _ _ => rfl) ⟨_, rfl, rfl, rfl⟩
  decide +kernel

end ConnectRun

end Gearman.Client
