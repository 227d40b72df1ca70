import Varta.Ports.JavaSecureUdp

/-!
# No nonce is used twice

The secure senders of the four ports, as one interface: any transport that a constructor returned,
and any calls of send and reconnect with any answers of the kernel, the source of entropy and the
providers.
-/
namespace Varta.Ports

open SessionNonces

/-- A port with its source of entropy. -/
inductive SecurePort (Salt : Type) where
  | python (entropy : Nat → Except Python.PyException Salt)
  | go (entropy : Nat → Except Go.GoError Salt)
  | java (entropy : Nat → Except Java.Throwable Salt)
  | dotnet (entropy : Nat → Except DotNet.NetException Salt)

/-- A transport as its callers see it, and its place. -/
structure Sender (Salt Iv : Type) where
  State : Type
  SendAnswers : Type
  SessionAnswers : Type
  limit : Nat
  place : State → Place Salt Iv
  /-- What a constructor has returned, after so many reads of entropy. -/
  Created : State → Nat → Prop
  send : State → SendAnswers → Nat → Outcome State Salt Iv
  reconnect : State → SessionAnswers → Nat → Outcome State Salt Iv

variable {Salt Iv : Type}

def SecurePort.drawn : SecurePort Salt → Nat → Option Salt
  | .python entropy => Ports.drawn entropy
  | .go entropy => Ports.drawn entropy
  | .java entropy => Ports.drawn entropy
  | .dotnet entropy => Ports.drawn entropy

def SecurePort.sender (kdf : Salt → Nat → Iv) : SecurePort Salt → Sender Salt Iv
  | .python entropy => {
      State := Python.SecureUdpTransport Salt Iv
      SendAnswers := Python.SendAnswers
      SessionAnswers := Python.SessionAnswers
      limit := Python.aeadCounterLimit
      place := Python.SecureUdpTransport.place
      Created := fun t reads =>
        ∃ mode a begun, Python.SecureUdpTransport.init kdf entropy mode a begun = (.ok t, reads)
      send := fun t a reads => (t.send kdf entropy a reads).outcome
      reconnect := fun t a reads => Reconnected.outcome (t.reconnect kdf entropy a reads) }
  | .go entropy => {
      State := Go.SecureUDPTransport Salt Iv
      SendAnswers := Go.SendAnswers
      SessionAnswers := Go.SessionAnswers
      limit := Go.aeadCounterLimit.toNat
      place := Go.SecureUDPTransport.place
      Created := fun t reads =>
        ∃ kind a begun, Go.SecureUDPTransport.new kdf entropy kind a begun = (.ok t, reads)
      send := fun t a reads => (t.send kdf entropy a reads).outcome
      reconnect := fun t a reads => Reconnected.outcome (t.reconnect kdf entropy a reads) }
  | .java entropy => {
      State := Java.SecureUdpTransport Salt Iv
      SendAnswers := Java.SendAnswers
      SessionAnswers := Java.SessionAnswers
      limit := Int32.maxValue.toUInt32.toNat
      place := Java.SecureUdpTransport.place
      Created := fun t reads => ∃ mode create a begun,
        Java.SecureUdpTransport.new kdf entropy mode create a begun = (.ok t, reads)
      send := fun t a reads => (t.send kdf entropy a reads).outcome
      reconnect := fun t a reads => Reconnected.outcome (t.reconnect kdf entropy a reads) }
  | .dotnet entropy => {
      State := DotNet.SecureUdpTransport Salt Iv
      SendAnswers := DotNet.SendAnswers
      SessionAnswers := DotNet.SessionAnswers
      limit := u32Max.toNat
      place := DotNet.SecureUdpTransport.place
      Created := fun t reads => ∃ mode isSupported a begun,
        DotNet.SecureUdpTransport.new kdf entropy mode isSupported a begun = (.ok t, reads)
      send := fun t a reads => (t.send kdf entropy a reads).outcome
      reconnect := fun t a reads => Reconnected.outcome (t.reconnect kdf entropy a reads) }

namespace Sender

variable (s : Sender Salt Iv)

inductive Call where
  | send (answers : s.SendAnswers)
  | reconnect (answers : s.SessionAnswers)

def call (t : s.State) (reads : Nat) : s.Call → Outcome s.State Salt Iv
  | .send a => s.send t a reads
  | .reconnect a => s.reconnect t a reads

/-- The transport and what it has sent after some calls. -/
def run (t : s.State) (reads : Nat) (calls : List s.Call) : Journal s.State Salt Iv :=
  Steps.run (Journal.record s.call) ⟨t, reads, []⟩ calls

variable (kdf : Salt → Nat → Iv) (drawn : Nat → Option Salt)

/-- A call that fails changes nothing, except that a send may leave an exhausted session for a new
one. A frame that was accepted is followed by the next value of the counter, and it was the next
one of its prefix, or the first of the next prefix, or the first of a new session. -/
structure Exact (reads : Nat) (before : Place Salt Iv) (call : s.Call)
    (o : Outcome (Place Salt Iv) Salt Iv) : Prop where
  failed : o.succeeded = false → o.accepted = none ∧ (o.state = before ∨
    (∃ a, call = .send a) ∧ before.Exhausted s.limit ∧
      ∃ salt, DrawnBetween drawn reads o.reads salt ∧ o.state = .first kdf salt)
  accepted : ∀ q, o.accepted = some q → o.state = q.next ∧
    (q = before ∨ q = before.rotated kdf ∧ before.counter = s.limit ∧ before.index < s.limit ∨
      before.Exhausted s.limit ∧ ∃ salt, DrawnBetween drawn reads o.reads salt ∧
        q = .first kdf salt)

/-- The frames that the kernel accepted are in the order of session, prefix index and counter, each
under the prefix of its session and index, and all with different nonces. Each further call is
exact. -/
structure NeverReuses (number : Salt → Nat) (j : Journal s.State Salt Iv) : Prop where
  increasing : (j.accepted.map (·.stamp number)).Pairwise (· < ·)
  genuine : ∀ q ∈ j.accepted, WellPlaced s.limit kdf q ∧ ∃ m, drawn m = some q.salt
  distinct : (j.accepted.map Place.nonce).Nodup
  exactly : ∀ call, s.Exact kdf drawn j.reads (s.place j.state) call
    ((s.call j.state j.reads call).view s.place)

/-- The transport opens and sends as its place allows. -/
structure Serving : Prop where
  positive : 0 < s.limit
  created : ∀ t reads, s.Created t reads →
    ∃ salt, DrawnBetween drawn 0 reads salt ∧ s.place t = .first kdf salt
  send : ∀ t a reads, WellPlaced s.limit kdf (s.place t) →
    Sends s.limit kdf drawn reads (s.place t) ((s.send t a reads).view s.place)
  reconnect : ∀ t a reads,
    Opens kdf drawn reads (s.place t) ((s.reconnect t a reads).view s.place)

variable {s kdf drawn}

theorem exact_of_opens {reads : Nat} {before : Place Salt Iv} {call : s.Call}
    {o : Outcome (Place Salt Iv) Salt Iv} (opens : Opens kdf drawn reads before o) :
    s.Exact kdf drawn reads before call o := by
  cases opens with
  | failed later =>
    refine ⟨fun _ => ⟨rfl, .inl rfl⟩, ?_⟩
    rintro q ⟨⟩
  | renewed new =>
    refine ⟨by rintro ⟨⟩, ?_⟩
    rintro q ⟨⟩

theorem exact_of_sends {reads : Nat} {before : Place Salt Iv} {a : s.SendAnswers}
    {o : Outcome (Place Salt Iv) Salt Iv} (sends : Sends s.limit kdf drawn reads before o) :
    s.Exact kdf drawn reads before (.send a) o := by
  cases sends with
  | refused later =>
    refine ⟨fun _ => ⟨rfl, .inl rfl⟩, ?_⟩
    rintro q ⟨⟩
  | renewed exhausted new =>
    refine ⟨fun _ => ⟨rfl, .inr ⟨⟨a, rfl⟩, exhausted, _, new, rfl⟩⟩, ?_⟩
    rintro q ⟨⟩
  | counted room =>
    refine ⟨by rintro ⟨⟩, ?_⟩
    rintro q ⟨⟩
    exact ⟨rfl, .inl rfl⟩
  | rotated spent room =>
    refine ⟨by rintro ⟨⟩, ?_⟩
    rintro q ⟨⟩
    exact ⟨rfl, .inr (.inl ⟨rfl, spent, room⟩)⟩
  | restarted exhausted new =>
    refine ⟨by rintro ⟨⟩, ?_⟩
    rintro q ⟨⟩
    exact ⟨rfl, .inr (.inr ⟨exhausted, _, new, rfl⟩)⟩

theorem Serving.serves (serving : s.Serving kdf drawn) (t : s.State) (reads : Nat) (call : s.Call)
    (placed : WellPlaced s.limit kdf (s.place t)) :
    Serves s.limit kdf drawn reads (s.place t) ((s.call t reads call).view s.place) := by
  cases call with
  | send a => exact .inr (serving.send t a reads placed)
  | reconnect a => exact .inl (serving.reconnect t a reads)

theorem Serving.neverReuses {number : Salt → Nat} (serving : s.Serving kdf drawn)
    (fresh : Fresh drawn number) (separates : Separates s.limit kdf) {t : s.State} {reads : Nat}
    (created : s.Created t reads) (calls : List s.Call) :
    s.NeverReuses kdf drawn number (s.run t reads calls) := by
  obtain ⟨salt, known, first⟩ := serving.created t reads created
  have start : Ordered s.limit kdf drawn number (s.place t) reads [] := by
    rw [first]
    exact .first known
  have ordered := Journal.run_ordered fresh serving.positive serving.serves
    (j := ⟨t, reads, []⟩) start calls
  refine ⟨ordered.ordered, ?_, ordered.nonces_nodup separates, ?_⟩
  · intro q sent
    obtain ⟨placed, m, -, -, read⟩ := ordered.genuine q sent
    exact ⟨placed, m, read⟩
  · intro call
    cases call with
    | send a => exact exact_of_sends (serving.send _ a _ ordered.placed)
    | reconnect a => exact exact_of_opens (serving.reconnect _ a _)

end Sender

/-! ### The ports -/

variable {kdf : Salt → Nat → Iv}

theorem SecurePort.serving (port : SecurePort Salt) : (port.sender kdf).Serving kdf port.drawn := by
  cases port with
  | python entropy =>
    constructor
    · exact (by decide : 0 < Python.aeadCounterLimit)
    · rintro t reads ⟨mode, a, begun, created⟩
      obtain ⟨salt, known, rfl⟩ :=
        (Python.SecureUdpTransport.prepareSession_prepares a begun).created created
      exact ⟨salt, known, rfl⟩
    · intro t a reads placed
      exact Python.SecureUdpTransport.send_sends placed a reads
    · exact Python.SecureUdpTransport.reconnect_opens
  | go entropy =>
    constructor
    · exact (by decide : 0 < Go.aeadCounterLimit.toNat)
    · rintro t reads ⟨kind, a, begun, created⟩
      obtain ⟨salt, known, rfl⟩ :=
        (Go.SecureUDPTransport.prepareSecureUDPSession_prepares a begun).created created
      exact ⟨salt, known, rfl⟩
    · intro t a reads _
      exact Go.SecureUDPTransport.send_sends t a reads
    · exact Go.SecureUDPTransport.reconnect_opens
  | java entropy =>
    constructor
    · exact (by decide : 0 < Int32.maxValue.toUInt32.toNat)
    · rintro t reads ⟨mode, create, a, begun, created⟩
      exact Java.SecureUdpTransport.new_created created
    · intro t a reads placed
      exact Java.SecureUdpTransport.send_sends placed a reads
    · exact Java.SecureUdpTransport.reconnect_opens
  | dotnet entropy =>
    constructor
    · exact (by decide : 0 < u32Max.toNat)
    · rintro t reads ⟨mode, isSupported, a, begun, created⟩
      unfold DotNet.SecureUdpTransport.new at created
      split at created
      · cases created
      · obtain ⟨salt, known, rfl⟩ :=
          (DotNet.SecureUdpTransport.prepareSession_prepares a begun).created created
        exact ⟨salt, known, rfl⟩
    · intro t a reads _
      exact DotNet.SecureUdpTransport.send_sends t a reads
    · exact DotNet.SecureUdpTransport.reconnect_opens

/-- Every limit fits into 32 bits. -/
theorem SecurePort.limit_le (port : SecurePort Salt) : (port.sender kdf).limit ≤ 2 ^ 32 - 1 := by
  cases port with
  | python entropy => exact (by decide : Python.aeadCounterLimit ≤ 2 ^ 32 - 1)
  | go entropy => exact (by decide : Go.aeadCounterLimit.toNat ≤ 2 ^ 32 - 1)
  | java entropy => exact (by decide : Int32.maxValue.toUInt32.toNat ≤ 2 ^ 32 - 1)
  | dotnet entropy => exact (by decide : u32Max.toNat ≤ 2 ^ 32 - 1)

/-- If every salt is fresh and the derivation of prefixes is injective, then whatever the calls and
the answers, no secure sender uses a nonce twice. -/
theorem secure_senders_never_reuse (port : SecurePort Salt) {number : Salt → Nat}
    (fresh : Fresh port.drawn number) (injective : Separates (2 ^ 32 - 1) kdf)
    {t : (port.sender kdf).State} {reads : Nat} (created : (port.sender kdf).Created t reads)
    (calls : List (port.sender kdf).Call) :
    (port.sender kdf).NeverReuses kdf port.drawn number ((port.sender kdf).run t reads calls) := by
  refine port.serving.neverReuses fresh ?_ created calls
  exact fun salt salt' index index' bound bound' =>
    injective salt salt' index index' (bound.trans port.limit_le) (bound'.trans port.limit_le)

/-- Java over a source whose salts are the numbers of the reads. -/
def countingJava : SecurePort Nat := .java .ok

def javaOpened : Java.SessionAnswers := ⟨7, .ok (), .ok ()⟩

/-- The providers work, and the socket takes so many bytes. -/
def javaWritten (n : Nat) : Java.SendAnswers := ⟨javaOpened, .ok (), .ok (), .ok (), .ok n⟩

/-- The shared-key transport of a process, as its constructor returns it. -/
def connectedJava : Java.SecureUdpTransport Nat (Nat × Nat) := ⟨.shared, 0, (0, 0), 0, 0, 7⟩

/-- A frame that is not taken, and a reconnect between two frames. -/
def javaCalls : List (countingJava.sender Prod.mk).Call :=
  [.send (javaWritten 60), .send (javaWritten 0), .send (javaWritten 60), .reconnect javaOpened,
    .send (javaWritten 60)]

theorem secure_senders_never_reuse_java :
    ((countingJava.sender Prod.mk).run connectedJava 1 javaCalls).accepted =
        [⟨0, 0, (0, 0), 0⟩, ⟨0, 0, (0, 0), 1⟩, ⟨1, 0, (1, 0), 0⟩] ∧
      (countingJava.sender Prod.mk).NeverReuses Prod.mk countingJava.drawn id
        ((countingJava.sender Prod.mk).run connectedJava 1 javaCalls) := by
  refine ⟨by decide, secure_senders_never_reuse countingJava ?_ ?_ ?_ javaCalls⟩
  · rintro m salt ⟨⟩
    rfl
  · intro salt salt' index index' _ _ same
    exact Prod.mk.inj same
  · exact ⟨.shared, .ok (), javaOpened, 0, rfl⟩

end Varta.Ports
