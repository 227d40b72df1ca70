import Varta.Lib.Steps
import Varta.Client.Panic

/-!
# Nonces of panic frames

A tree of processes that install panic hooks, fork, exit and panic. A panic calls the hooks
of its process newest first; here each call is a step of its own, so that the calls of
several processes can come in any order. The clock is later at each call than at the one
before.
-/
namespace Varta.Client

open Machine

variable {Salt Iv Key : Type}

/-! ### The tree -/

/-- A hook in the chain of a process, with the process's copy of its `iv_counter_atom`. -/
structure Armed where
  hook : Nat
  ivCounter : Nat
  deriving DecidableEq, Repr

structure PanicProcess where
  pid : UInt32
  alive : Bool
  lastTerminalTimestamp : Nat
  /-- Newest first. -/
  chain : List Armed
  deriving DecidableEq, Repr

/-- A sealed frame, with the process and the hook it is from and what that call found. -/
structure Fire (Iv Key : Type) where
  process : Nat
  hook : Nat
  clock : Nat
  mark : Nat
  sealed : SecurePanicFrame Iv Key
  deriving DecidableEq, Repr

def Fire.sealedUnder (f : Fire Iv Key) : Key × Iv × UInt32 :=
  (f.sealed.key, f.sealed.noncePrefix, f.sealed.ivCounter)

structure PanicTree (Salt Iv Key : Type) where
  clock : Nat
  /-- The hooks of all processes, in the order of installation. -/
  hooks : List (Hook Salt Key)
  processes : List PanicProcess
  fires : List (Fire Iv Key)

inductive PanicAction (Salt Key : Type) where
  | pass (nanoseconds : Nat)
  | install (process : Nat) (b : Binding)
  | installSecure (process : Nat) (key : Key) (provider : Except Nat Salt) (b : Binding)
  | fork (parent : Nat) (childPid : UInt32)
  | exit (process : Nat)
  | fire (process position : Nat) (aeadSeal : Bool)

namespace PanicTree

def root (pid : UInt32) : PanicTree Salt Iv Key := ⟨0, [], [⟨pid, true, 0, []⟩], []⟩

def live (w : PanicTree Salt Iv Key) (i : Nat) : Option PanicProcess :=
  (w.processes[i]?).filter (·.alive)

/-- `set_hook`, with the hook before it as the rest of the chain. -/
def setHook (w : PanicTree Salt Iv Key) (i : Nat) (hook : Hook Salt Key) :
    PanicTree Salt Iv Key :=
  { w with
    hooks := w.hooks ++ [hook]
    processes := w.processes.modify i fun p => { p with chain := ⟨w.hooks.length, 0⟩ :: p.chain } }

/-- No two live processes have one pid; one that is free may be given again. -/
def fork (w : PanicTree Salt Iv Key) (i : Nat) (childPid : UInt32) : PanicTree Salt Iv Key :=
  match w.live i with
  | none => w
  | some p =>
    if w.processes.any (fun q => q.alive && q.pid == childPid) then w
    else { w with processes := w.processes ++ [{ p with pid := childPid }] }

/-- A live process, a hook of its chain and what the hook has captured. -/
def find (w : PanicTree Salt Iv Key) (i position : Nat) :
    Option (PanicProcess × Armed × Hook Salt Key) := do
  let p ← w.live i
  let armed ← p.chain[position]?
  let hook ← w.hooks[armed.hook]?
  return (p, armed, hook)

variable (derivePanicIvPrefix : Salt → UInt32 → Nat → UInt32 → Option Iv)

def fire (w : PanicTree Salt Iv Key) (i position : Nat) (aeadSeal : Bool) :
    PanicTree Salt Iv Key :=
  match w.find i position with
  | none => w
  | some (p, armed, hook) =>
    let clock := w.clock + 1
    let out := hook.run derivePanicIvPrefix clock p.pid p.lastTerminalTimestamp armed.ivCounter
      aeadSeal
    { w with
      clock := clock
      processes := w.processes.set i { p with
        lastTerminalTimestamp := out.lastTerminalTimestamp
        chain := p.chain.set position { armed with ivCounter := out.ivCounter } }
      fires := w.fires ++
        (out.sealed.map (⟨i, armed.hook, clock, p.lastTerminalTimestamp, ·⟩)).toList }

def step (w : PanicTree Salt Iv Key) : PanicAction Salt Key → PanicTree Salt Iv Key
  | .pass nanoseconds => { w with clock := w.clock + nanoseconds }
  | .install i b =>
    match w.live i, Client.install w.clock b with
    | some _, .ok hook => w.setHook i hook
    | _, _ => w
  | .installSecure i key provider b =>
    match w.live i, installWithEntropyProvider w.clock key provider b with
    | some _, .ok hook => w.setHook i hook
    | _, _ => w
  | .fork parent childPid => w.fork parent childPid
  | .exit i => { w with processes := w.processes.modify i fun p => { p with alive := false } }
  | .fire i position aeadSeal => w.fire derivePanicIvPrefix i position aeadSeal

/-! ### What stays -/

variable {derivePanicIvPrefix} {w w' : PanicTree Salt Iv Key} {f g : Fire Iv Key}

/-- Hooks and pids stay, the clock and the marks only go up. -/
structure Extends (w w' : PanicTree Salt Iv Key) : Prop where
  clock : w.clock ≤ w'.clock
  hooks : ∀ (h : Nat) (hook : Hook Salt Key), w.hooks[h]? = some hook → w'.hooks[h]? = some hook
  processes : ∀ (i : Nat) (p : PanicProcess), w.processes[i]? = some p →
    ∃ p', w'.processes[i]? = some p' ∧ p'.pid = p.pid ∧
      p.lastTerminalTimestamp ≤ p'.lastTerminalTimestamp

theorem Extends.refl (w : PanicTree Salt Iv Key) : Extends w w :=
  ⟨Nat.le_refl _, fun _ _ found => found, fun _ p found => ⟨p, found, rfl, Nat.le_refl _⟩⟩

variable {p : PanicProcess} {hook : Hook Salt Key}

theorem live_eq_some {i : Nat} :
    w.live i = some p ↔ w.processes[i]? = some p ∧ p.alive = true := by
  simp [live, Option.filter_eq_some_iff]

theorem modify_extends (w : PanicTree Salt Iv Key) (i : Nat) (hooks : List (Hook Salt Key))
    {change : PanicProcess → PanicProcess} (pid : ∀ p, (change p).pid = p.pid)
    (mark : ∀ p, (change p).lastTerminalTimestamp = p.lastTerminalTimestamp) :
    Extends w { w with hooks := w.hooks ++ hooks, processes := w.processes.modify i change } := by
  constructor
  · exact Nat.le_refl _
  · intro h hook found
    obtain ⟨inside, _⟩ := List.getElem?_eq_some_iff.mp found
    rw [List.getElem?_append_left inside, found]
  · intro j p found
    by_cases same : i = j
    · exact ⟨change p, by simp [same, found], pid p, by simp [mark p]⟩
    · exact ⟨p, by simp [same, found], rfl, Nat.le_refl _⟩

theorem fork_extends (w : PanicTree Salt Iv Key) (i : Nat) (childPid : UInt32) :
    Extends w (w.fork i childPid) := by
  unfold fork
  cases w.live i with
  | none => exact .refl w
  | some p =>
    dsimp only
    split
    · exact .refl w
    · refine ⟨Nat.le_refl _, fun _ _ found => found, ?_⟩
      intro j q found
      obtain ⟨inside, _⟩ := List.getElem?_eq_some_iff.mp found
      exact ⟨q, by simp [List.getElem?_append_left inside, found], rfl, Nat.le_refl _⟩

theorem find_eq_some {i position : Nat} {armed : Armed} :
    w.find i position = some (p, armed, hook) ↔
      w.live i = some p ∧ p.chain[position]? = some armed ∧ w.hooks[armed.hook]? = some hook := by
  simp only [find, Option.bind_eq_bind, Option.bind_eq_some_iff, Option.pure_def,
    Option.some.injEq, Prod.mk.injEq]
  constructor
  · rintro ⟨_, live, _, inChain, _, installed, rfl, rfl, rfl⟩
    exact ⟨live, inChain, installed⟩
  · rintro ⟨live, inChain, installed⟩
    exact ⟨p, live, armed, inChain, hook, installed, rfl, rfl, rfl⟩

theorem fire_extends (w : PanicTree Salt Iv Key) (i position : Nat) (aeadSeal : Bool) :
    Extends w (w.fire derivePanicIvPrefix i position aeadSeal) := by
  unfold fire
  cases found : w.find i position with
  | none => exact .refl w
  | some at_ =>
    obtain ⟨p, armed, hook⟩ := at_
    obtain ⟨live, _, _⟩ := find_eq_some.mp found
    obtain ⟨member, _⟩ := live_eq_some.mp live
    refine ⟨Nat.le_succ _, fun _ _ found => found, ?_⟩
    intro j q member'
    by_cases same : i = j
    · subst same
      obtain rfl : p = q := by simpa [member] using member'
      obtain ⟨inside, _⟩ := List.getElem?_eq_some_iff.mp member
      exact ⟨_, List.getElem?_set_self inside, rfl, Hook.run_mark_le⟩
    · exact ⟨q, by simp [same, member'], rfl, Nat.le_refl _⟩

theorem step_extends (w : PanicTree Salt Iv Key) (a : PanicAction Salt Key) :
    Extends w (w.step derivePanicIvPrefix a) := by
  cases a with
  | pass nanoseconds =>
    exact ⟨Nat.le_add_right _ _, fun _ _ found => found, fun _ p found => ⟨p, found, rfl, Nat.le_refl _⟩⟩
  | install i | installSecure i =>
    simp only [step]
    split
    · exact modify_extends w i [_] (fun _ => rfl) (fun _ => rfl)
    · exact .refl w
  | fork parent childPid => exact fork_extends w parent childPid
  | exit i =>
    have grown : Extends w { w with
        hooks := w.hooks ++ []
        processes := w.processes.modify i fun p => { p with alive := false } } :=
      modify_extends w i [] (fun _ => rfl) (fun _ => rfl)
    simpa [step] using grown
  | fire i position aeadSeal => exact fire_extends w i position aeadSeal

/-! ### The frames of a run -/

variable (derivePanicIvPrefix) in
/-- The frame was sealed by a hook and a process of the tree. -/
structure Recorded (w : PanicTree Salt Iv Key) (f : Fire Iv Key) : Prop where
  hook : ∃ hook ivCounter, w.hooks[f.hook]? = some hook ∧
    hook.Seals derivePanicIvPrefix f.clock f.sealed.frame.pid f.mark ivCounter f.sealed
  past : f.clock ≤ w.clock
  process : ∃ p, w.processes[f.process]? = some p ∧ p.pid = f.sealed.frame.pid ∧
    f.sealed.frame.timestamp ≤ p.lastTerminalTimestamp

theorem Recorded.later (recorded : Recorded derivePanicIvPrefix w f) (grown : Extends w w') :
    Recorded derivePanicIvPrefix w' f := by
  obtain ⟨⟨hook, ivCounter, installed, seals⟩, past, p, member, pid, below⟩ := recorded
  obtain ⟨p', member', pid', above⟩ := grown.processes f.process p member
  refine ⟨⟨hook, ivCounter, grown.hooks _ _ installed, seals⟩, ?_, p', member', ?_, ?_⟩
  · exact Nat.le_trans past grown.clock
  · rw [pid', pid]
  · exact Nat.le_trans below above

variable (derivePanicIvPrefix) in
structure Distinct (w : PanicTree Salt Iv Key) : Prop where
  recorded : ∀ f ∈ w.fires, Recorded derivePanicIvPrefix w f
  distinct : w.fires.Pairwise fun f g => f.hook = g.hook → f.sealedUnder ≠ g.sealedUnder

variable (derivePanicIvPrefix) in
/-- Key derivation separates what the frames of a salt are derived from. -/
def SeparatesFires : Prop := ∀ salt pid pid' timestamp timestamp' counter counter' iv,
  derivePanicIvPrefix salt pid timestamp counter = some iv →
  derivePanicIvPrefix salt pid' timestamp' counter' = some iv →
  pid = pid' ∧ timestamp = timestamp' ∧ counter = counter'

/-- The shared mark was behind the hook's own clock, which had not run out. -/
def Hook.OnTime (hook : Hook Salt Key) (f : Fire Iv Key) : Prop :=
  f.mark < elapsed hook.start f.clock ∧ elapsed hook.start f.clock < maxValidTerminalTimestamp

/-- The call does not take up the pid and the counter of another process's frame from the same
hook, unless that frame was sealed on time. -/
def Apart (w : PanicTree Salt Iv Key) : PanicAction Salt Key → Prop
  | .fire i position _ => ∀ at_ ∈ w.find i position, ∀ f ∈ w.fires,
    f.hook = at_.2.1.hook → f.process ≠ i → f.sealed.frame.pid = at_.1.pid →
      f.sealed.ivCounter.toNat = at_.2.1.ivCounter → Hook.OnTime at_.2.2 f
  | _ => True

instance (hook : Hook Salt Key) (f : Fire Iv Key) : Decidable (Hook.OnTime hook f) :=
  inferInstanceAs (Decidable (_ ∧ _))

instance Apart.decidable (w : PanicTree Salt Iv Key) :
    (a : PanicAction Salt Key) → Decidable (w.Apart a)
  | .fire i position _ => inferInstanceAs (Decidable (∀ at_ ∈ w.find i position, ∀ f ∈ w.fires,
      f.hook = at_.2.1.hook → f.process ≠ i → f.sealed.frame.pid = at_.1.pid →
        f.sealed.ivCounter.toNat = at_.2.1.ivCounter → Hook.OnTime at_.2.2 f))
  | .pass _ | .install .. | .installSecure .. | .fork .. | .exit _ => inferInstanceAs (Decidable True)

/-- What was sealed on time has an earlier timestamp than what is sealed later. -/
theorem onTime_before {clock mark ivCounter ivCounter' : Nat} {pid pid' : UInt32}
    {sealed : SecurePanicFrame Iv Key} (onTime : Hook.OnTime hook f)
    (seals : hook.Seals derivePanicIvPrefix f.clock pid f.mark ivCounter f.sealed)
    (seals' : hook.Seals derivePanicIvPrefix clock pid' mark ivCounter' sealed)
    (later : f.clock < clock) : f.sealed.frame.timestamp < sealed.frame.timestamp := by
  obtain ⟨behind, room⟩ := onTime
  rw [seals.timestamp, seals'.timestamp]
  -- on time, the timestamp is the clock itself; later on it is at least that
  unfold elapsed maxValidTerminalTimestamp u64Bound at *
  omega

/-- A call seals nothing, or one frame at the end of the record. -/
theorem fire_cases (w : PanicTree Salt Iv Key) (i position : Nat) (aeadSeal : Bool) :
    (w.fire derivePanicIvPrefix i position aeadSeal).fires = w.fires ∨
    ∃ p armed hook sealed, w.find i position = some (p, armed, hook) ∧
      hook.Seals derivePanicIvPrefix (w.clock + 1) p.pid p.lastTerminalTimestamp armed.ivCounter
        sealed ∧
      (w.fire derivePanicIvPrefix i position aeadSeal).fires =
        w.fires ++ [⟨i, armed.hook, w.clock + 1, p.lastTerminalTimestamp, sealed⟩] ∧
      (w.fire derivePanicIvPrefix i position aeadSeal).clock = w.clock + 1 ∧
      ∃ p', (w.fire derivePanicIvPrefix i position aeadSeal).processes[i]? = some p' ∧
        p'.pid = p.pid ∧ p'.lastTerminalTimestamp = sealed.frame.timestamp := by
  unfold fire
  cases found : w.find i position with
  | none => exact .inl rfl
  | some at_ =>
    obtain ⟨p, armed, hook⟩ := at_
    obtain ⟨live, _, _⟩ := find_eq_some.mp found
    obtain ⟨member, _⟩ := live_eq_some.mp live
    obtain ⟨inside, _⟩ := List.getElem?_eq_some_iff.mp member
    cases fired : (hook.run derivePanicIvPrefix (w.clock + 1) p.pid p.lastTerminalTimestamp
        armed.ivCounter aeadSeal).sealed with
    | none => simp [fired]
    | some sealed =>
      obtain ⟨seals, mark⟩ := Hook.run_sealed fired
      exact .inr ⟨p, armed, hook, sealed, rfl, seals, by simp [fired], rfl, _,
        List.getElem?_set_self inside, rfl, mark⟩

/-- The frame that a call seals is under another nonce than those before it from its hook. -/
theorem Recorded.sealedUnder_ne {i position : Nat} {aeadSeal : Bool} {armed : Armed}
    {sealed : SecurePanicFrame Iv Key} (recorded : Recorded derivePanicIvPrefix w f)
    (before : f ∈ w.fires) (separates : SeparatesFires derivePanicIvPrefix)
    (apart : w.Apart (.fire i position aeadSeal))
    (found : w.find i position = some (p, armed, hook))
    (seals : hook.Seals derivePanicIvPrefix (w.clock + 1) p.pid p.lastTerminalTimestamp
      armed.ivCounter sealed) (ofHook : f.hook = armed.hook) :
    f.sealedUnder ≠ (sealed.key, sealed.noncePrefix, sealed.ivCounter) := by
  intro same
  obtain ⟨live, _, installed⟩ := find_eq_some.mp found
  obtain ⟨member, _⟩ := live_eq_some.mp live
  obtain ⟨⟨hook', ivCounter, installed', seals'⟩, past, q, owner, _, below⟩ := recorded
  obtain rfl : hook = hook' := by
    rw [ofHook, installed] at installed'
    simpa using installed'
  simp only [Fire.sealedUnder, Prod.mk.injEq] at same
  obtain ⟨_, samePrefix, sameCounter⟩ := same
  -- both prefixes are derived from the salt of the one hook
  obtain ⟨salt, secure, derived⟩ := seals.derived
  obtain ⟨salt', secure', derived'⟩ := seals'.derived
  obtain rfl : salt = salt' := by
    rw [secure] at secure'
    simp_all
  rw [samePrefix] at derived'
  obtain ⟨samePid, sameTimestamp, _⟩ := separates _ _ _ _ _ _ _ _ derived' derived
  by_cases sameProcess : f.process = i
  · -- the process has raised its mark to the old timestamp
    obtain rfl : p = q := by
      rw [sameProcess, member] at owner
      simpa using owner
    have stamped := seals.timestamp
    omega
  · -- another process with this pid: its frame was on time, so the clock tells the two apart
    have onTime := apart _ found f before ofHook sameProcess samePid (by
      rw [sameCounter, seals.counter])
    have earlier := onTime_before onTime seals' seals (by omega)
    omega

theorem Distinct.fire {i position : Nat} {aeadSeal : Bool} (sound : Distinct derivePanicIvPrefix w)
    (separates : SeparatesFires derivePanicIvPrefix) (apart : w.Apart (.fire i position aeadSeal)) :
    Distinct derivePanicIvPrefix (w.fire derivePanicIvPrefix i position aeadSeal) := by
  have grown : Extends w (w.fire derivePanicIvPrefix i position aeadSeal) := fire_extends ..
  have old : ∀ f ∈ w.fires, Recorded derivePanicIvPrefix
      (w.fire derivePanicIvPrefix i position aeadSeal) f :=
    fun f before => (sound.recorded f before).later grown
  obtain same | ⟨p, armed, hook, sealed, found, seals, fires, clock, p', member', pid', mark'⟩ :=
    @fire_cases _ _ _ derivePanicIvPrefix w i position aeadSeal
  · exact ⟨by rwa [same], by rw [same]; exact sound.distinct⟩
  · obtain ⟨live, _, installed⟩ := find_eq_some.mp found
    obtain ⟨member, _⟩ := live_eq_some.mp live
    constructor
    · intro f sent
      rw [fires] at sent
      rcases List.mem_append.mp sent with before | now
      · exact old f before
      · obtain rfl := List.mem_singleton.mp now
        have pid := seals.pid
        refine ⟨⟨hook, armed.ivCounter, grown.hooks _ _ installed, pid ▸ seals⟩, ?_,
          p', member', ?_, ?_⟩
        · exact Nat.le_of_eq clock.symm
        · rw [pid', pid]
        · exact Nat.le_of_eq mark'.symm
    · rw [fires, List.pairwise_append]
      refine ⟨sound.distinct, List.pairwise_singleton .., ?_⟩
      intro f before g now ofHook same
      obtain rfl := List.mem_singleton.mp now
      exact (sound.recorded f before).sealedUnder_ne before separates apart found seals ofHook same

theorem Distinct.step {a : PanicAction Salt Key} (sound : Distinct derivePanicIvPrefix w)
    (separates : SeparatesFires derivePanicIvPrefix) (apart : w.Apart a) :
    Distinct derivePanicIvPrefix (w.step derivePanicIvPrefix a) := by
  have grown : Extends w (w.step derivePanicIvPrefix a) := step_extends w a
  -- an action that seals nothing only lets the tree grow
  have quiet (same : (w.step derivePanicIvPrefix a).fires = w.fires) :
      Distinct derivePanicIvPrefix (w.step derivePanicIvPrefix a) :=
    ⟨fun f sent => (sound.recorded f (same ▸ sent)).later grown, by
      rw [same]
      exact sound.distinct⟩
  cases a with
  | pass nanoseconds => exact quiet rfl
  | install | installSecure =>
    apply quiet
    simp only [PanicTree.step]
    split <;> rfl
  | fork parent childPid =>
    apply quiet
    simp only [PanicTree.step, PanicTree.fork]
    split
    · rfl
    · split <;> rfl
  | exit i => exact quiet rfl
  | fire i position aeadSeal => exact sound.fire separates apart

theorem distinct_root (pid : UInt32) :
    Distinct derivePanicIvPrefix (root pid : PanicTree Salt Iv Key) :=
  ⟨by simp [root], by simp [root]⟩

/-- No two frames of one secure hook are sealed under the same nonce. -/
theorem panic_nonces_unique (separates : SeparatesFires derivePanicIvPrefix) (pid : UInt32)
    (actions : List (PanicAction Salt Key))
    (apart : Steps.Guarded (step derivePanicIvPrefix) Apart (root pid) actions) :
    (Steps.run (step derivePanicIvPrefix) (root pid) actions).fires.Pairwise
      fun f g => f.hook = g.hook → f.sealedUnder ≠ g.sealedUnder := by
  have sound : Distinct derivePanicIvPrefix
      (Steps.run (step derivePanicIvPrefix) (root pid) actions) :=
    apart.invariant (fun _ _ sound apart => sound.step separates apart) (distinct_root pid)
  exact sound.distinct

/-- A derivation that keeps its inputs. -/
def keepInputs (salt : Nat) (pid : UInt32) (timestamp : Nat) (ivCounter : UInt32) :
    Option (Nat × UInt32 × Nat × UInt32) :=
  some (salt, pid, timestamp, ivCounter)

theorem keepInputs_separates : SeparatesFires keepInputs := by
  intro salt pid pid' timestamp timestamp' counter counter' iv derived derived'
  simp only [keepInputs, Option.some.injEq] at derived derived'
  subst derived'
  simpa using derived

/-- The parent installs a secure hook; two children with one pid panic after each other. -/
def recycledPid : List (PanicAction Nat Unit) :=
  [.installSecure 0 () (.ok 7) .granted, .fork 0 42, .fire 1 0 true, .exit 1, .fork 0 42,
    .fire 2 0 true]

theorem panic_nonces_unique_recycledPid :
    let w := Steps.run (step keepInputs) (root 1) recycledPid
    w.fires.length = 2 ∧
      w.fires.Pairwise fun f g => f.hook = g.hook → f.sealedUnder ≠ g.sealedUnder :=
  ⟨by decide, panic_nonces_unique keepInputs_separates 1 recycledPid (by decide)⟩

/-- The same after the parent has survived a panic with an older, plain hook: the mark that
both children inherit is ahead of the secure hook's clock. -/
theorem nonce_reused_behind_mark :
    let actions := [.install 0 .granted, .pass 1000, .fire 0 0 true] ++ recycledPid
    ¬(Steps.run (step keepInputs) (root 1) actions).fires.Pairwise
      fun f g => f.hook = g.hook → f.sealedUnder ≠ g.sealedUnder := by
  decide

end PanicTree

end Varta.Client
