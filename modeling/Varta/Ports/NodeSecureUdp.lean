import Varta.Ports.SecureUdp

/-!
# The secure sender of Node

`SecureUdpTransport` of `clients/node/src/transport.ts` on its event loop. A frame that is sent
before the socket has connected waits in a queue, which the connect callback hands over. Calls and
callbacks come in any order, of the socket of now or of one that it has replaced. What has been
handed over and what waits is what the sends have taken, in their order, and under nonces that
differ.
-/
namespace Varta.Ports.Node

open SessionNonces Vlp

variable {ε Salt Iv : Type}

/-! ### The transport -/

/-- A sealed frame: where its nonce comes from, and its plaintext. -/
structure Wire (Salt Iv : Type) where
  place : Place Salt Iv
  plaintext : Bytes32

/-- An error with the socket that has reported it. -/
structure Reported (ε : Type) where
  socket : Nat
  error : ε

/-- What a call throws. -/
inductive Thrown (ε : Type) where
  | pending (reported : Reported ε)
  /-- `ENOBUFS`: "SecureUdpTransport: pre-connect queue full". -/
  | queueFull
  | environment (error : ε)

/-- Sockets are numbered as they are made. -/
structure SecureUdpTransport (ε Salt Iv : Type) where
  socket : Nat
  sessionSalt : Salt
  ivPrefix : Iv
  prefixIndex : Nat
  counter : Nat
  connected : Bool
  preConnectQueue : List (Wire Salt Iv)
  pendingError : Option (Reported ε)

structure NonceReservation (Iv : Type) where
  ivRandom : Iv
  counter : Nat
  nextPrefixIndex : Nat
  nextIvPrefix : Iv
  nextCounter : Nat

def preConnectQueueLimit : Nat := 64

def u32Max : Nat := 0xffffffff

/-- The transport and what has happened around it. -/
structure World (ε Salt Iv : Type) where
  transport : SecureUdpTransport ε Salt Iv
  /-- The sockets that were made. -/
  sockets : Nat
  /-- The reads of `randomBytes`. -/
  reads : Nat
  /-- What `socket.send` was given, with the socket. -/
  handed : List (Nat × Wire Salt Iv)
  /-- The frames of the sends that have returned. -/
  returned : List (Wire Salt Iv)

/-- The answers to `reconnect`, without the salt. -/
structure SessionAnswers (ε : Type) where
  hkdf : Except ε Unit
  openSocket : Except ε Unit

structure SendAnswers (ε : Type) where
  session : SessionAnswers ε
  hkdf : Except ε Unit
  encode : Except ε Unit

namespace World

variable (kdf : Salt → Nat → Iv) (entropy : Nat → Except ε Salt)

/-- `info` has the 32 bits of the index. -/
def deriveIvPrefix (hkdf : Except ε Unit) (salt : Salt) (prefixIndex : Nat) : Except ε Iv :=
  hkdf.map fun _ => kdf salt prefixIndex

/-- The salt and the prefix of a new session, and the reads. -/
def newSession (a : SessionAnswers ε) (reads : Nat) : Except ε (Salt × Iv) × Nat :=
  match entropy reads with
  | .error e => (.error e, reads + 1)
  | .ok salt => ((deriveIvPrefix kdf a.hkdf salt 0).map (salt, ·), reads + 1)

/-- The constructor. -/
def new (a : SessionAnswers ε) : Except ε (World ε Salt Iv) :=
  match newSession kdf entropy a 0 with
  | (.error e, _) => .error e
  | (.ok (salt, ivPrefix), reads) =>
    a.openSocket.map fun _ => ⟨⟨0, salt, ivPrefix, 0, 0, false, [], none⟩, 1, reads, [], []⟩

/-- The new socket and the new session. The queue stays. -/
def renewed (w : World ε Salt Iv) (salt : Salt) (ivPrefix : Iv) (reads : Nat) : World ε Salt Iv :=
  { w with
    reads
    sockets := w.sockets + 1
    transport := { w.transport with
      socket := w.sockets
      connected := false
      pendingError := none
      sessionSalt := salt
      prefixIndex := 0
      counter := 0
      ivPrefix } }

/-- A socket that could not be opened is not used by anyone. -/
def reconnect (w : World ε Salt Iv) (a : SessionAnswers ε) :
    Except (Thrown ε) Unit × World ε Salt Iv :=
  match newSession kdf entropy a w.reads with
  | (.error e, reads) => (.error (.environment e), { w with reads })
  | (.ok (salt, ivPrefix), reads) =>
    match a.openSocket with
    | .error e => (.error (.environment e), { w with reads, sockets := w.sockets + 1 })
    | .ok () => (.ok (), w.renewed salt ivPrefix reads)

/-- `prepareNonce` after the check for exhaustion. -/
def reserve (t : SecureUdpTransport ε Salt Iv) (hkdf : Except ε Unit) :
    Except (Thrown ε) (NonceReservation Iv) :=
  if t.counter = u32Max then
    let nextPrefixIndex := (t.prefixIndex + 1) % 2 ^ 32
    match deriveIvPrefix kdf hkdf t.sessionSalt nextPrefixIndex with
    | .error e => .error (.environment e)
    | .ok nextIvPrefix => .ok ⟨nextIvPrefix, 0, nextPrefixIndex, nextIvPrefix, (0 + 1) % 2 ^ 32⟩
  else .ok ⟨t.ivPrefix, t.counter, t.prefixIndex, t.ivPrefix, (t.counter + 1) % 2 ^ 32⟩

def prepareNonce (w : World ε Salt Iv) (a : SendAnswers ε) :
    Except (Thrown ε) (NonceReservation Iv) × World ε Salt Iv :=
  if w.transport.counter = u32Max ∧ w.transport.prefixIndex = u32Max then
    match w.reconnect kdf entropy a.session with
    | (.error e, w) => (.error e, w)
    | (.ok (), w) => (reserve kdf w.transport a.hkdf, w)
  else (reserve kdf w.transport a.hkdf, w)

def commitNonce (t : SecureUdpTransport ε Salt Iv) (r : NonceReservation Iv) :
    SecureUdpTransport ε Salt Iv :=
  { t with prefixIndex := r.nextPrefixIndex, ivPrefix := r.nextIvPrefix, counter := r.nextCounter }

/-- The frame that is sealed with a reservation. -/
def sealed (t : SecureUdpTransport ε Salt Iv) (r : NonceReservation Iv) (buf : Bytes32) :
    Wire Salt Iv :=
  ⟨⟨t.sessionSalt, r.nextPrefixIndex, r.ivRandom, r.counter⟩, buf⟩

/-- The end of `send`: the frame waits, or goes to the socket. -/
def deliver (w : World ε Salt Iv) (wire : Wire Salt Iv) (r : NonceReservation Iv) :
    World ε Salt Iv :=
  if ¬ w.transport.connected then
    { w with transport := { commitNonce w.transport r with
        preConnectQueue := w.transport.preConnectQueue ++ [wire] } }
  else
    { w with
      handed := w.handed ++ [(w.transport.socket, wire)]
      transport := commitNonce w.transport r }

/-- `send` after the check of the queue. It returns nothing, here the frame that it has taken. -/
def emit (w : World ε Salt Iv) (buf : Bytes32) (a : SendAnswers ε) :
    Except (Thrown ε) (Wire Salt Iv) × World ε Salt Iv :=
  match w.prepareNonce kdf entropy a with
  | (.error e, w) => (.error e, w)
  | (.ok r, w) =>
    match a.encode with
    | .error e => (.error (.environment e), w)
    | .ok () =>
      let wire := sealed w.transport r buf
      (.ok wire, w.deliver wire r)

def takePendingError (w : World ε Salt Iv) : Option (Reported ε) × World ε Salt Iv :=
  (w.transport.pendingError, { w with transport := { w.transport with pendingError := none } })

def send (w : World ε Salt Iv) (buf : Bytes32) (a : SendAnswers ε) :
    Except (Thrown ε) (Wire Salt Iv) × World ε Salt Iv :=
  match w.takePendingError with
  | (some reported, w) => (.error (.pending reported), w)
  | (none, w) =>
    if ¬ w.transport.connected ∧ w.transport.preConnectQueue.length ≥ preConnectQueueLimit then
      (.error .queueFull, w)
    else w.emit kdf entropy buf a

/-! ### The event loop -/

/-- The world after a send has returned or thrown. -/
def settled (r : Except (Thrown ε) (Wire Salt Iv) × World ε Salt Iv) : World ε Salt Iv :=
  match r with
  | (.error _, w) => w
  | (.ok wire, w) => { w with returned := w.returned ++ [wire] }

/-- The loop of the connect callback: the first frame of the queue goes to the socket. -/
def drain (socket : Nat) : List (Wire Salt Iv) → List (Nat × Wire Salt Iv) →
    List (Nat × Wire Salt Iv)
  | [], handed => handed
  | wire :: queue, handed => drain socket queue (handed ++ [(socket, wire)])

/-- The connect callback of a socket. -/
def onConnect (w : World ε Salt Iv) (socket : Nat) : World ε Salt Iv :=
  if w.transport.socket ≠ socket then w
  else { w with
    handed := drain socket w.transport.preConnectQueue w.handed
    transport := { w.transport with connected := true, preConnectQueue := [] } }

/-- The error event of a socket, and a send callback with an error. -/
def onError (w : World ε Salt Iv) (socket : Nat) (error : ε) : World ε Salt Iv :=
  if w.transport.socket = socket then
    { w with transport := { w.transport with pendingError := some ⟨socket, error⟩ } }
  else w

end World

/-- A call, or a callback of some socket. -/
inductive Event (ε : Type) where
  | send (buf : Bytes32) (a : SendAnswers ε)
  | reconnect (a : SessionAnswers ε)
  | connected (socket : Nat)
  | error (socket : Nat) (error : ε)
  | sendDone (socket : Nat) (error : Option ε)

def World.step (kdf : Salt → Nat → Iv) (entropy : Nat → Except ε Salt) (w : World ε Salt Iv) :
    Event ε → World ε Salt Iv
  | .send buf a => settled (w.send kdf entropy buf a)
  | .reconnect a => (w.reconnect kdf entropy a).2
  | .connected socket => w.onConnect socket
  | .error socket error => w.onError socket error
  | .sendDone _ none => w
  | .sendDone socket (some error) => w.onError socket error

/-! ### What a reconnect and a reservation do -/

namespace World

variable {kdf : Salt → Nat → Iv} {entropy : Nat → Except ε Salt} {w w' : World ε Salt Iv}

/-- Where the next frame stands. -/
def place (w : World ε Salt Iv) : Place Salt Iv :=
  ⟨w.transport.sessionSalt, w.transport.prefixIndex, w.transport.ivPrefix, w.transport.counter⟩

theorem newSession_prepares (a : SessionAnswers ε) (reads : Nat) :
    Prepares kdf entropy reads (newSession kdf entropy a reads) := by
  unfold newSession deriveIvPrefix
  cases read : entropy reads with
  | error e => exact .failed (Nat.le_succ _)
  | ok salt => exact .derived read a.hkdf

theorem reconnect_opens (w : World ε Salt Iv) (a : SessionAnswers ε) :
    Opens kdf (drawn entropy) w.reads w.place
      ⟨(w.reconnect kdf entropy a).1.isOk, (w.reconnect kdf entropy a).2.place,
        (w.reconnect kdf entropy a).2.reads, none⟩ := by
  unfold reconnect
  have prepares : Prepares kdf entropy w.reads _ := newSession_prepares a w.reads
  generalize newSession kdf entropy a w.reads = r at prepares ⊢
  cases prepares with
  | failed later => exact .failed later
  | prepared new =>
    cases a.openSocket with
    | error e => exact .failed new.le
    | ok _ => exact .renewed new

/-- What a reservation says of itself. -/
structure Fits (r : NonceReservation Iv) : Prop where
  ivRandom : r.ivRandom = r.nextIvPrefix
  nextCounter : r.nextCounter = (r.counter + 1) % 2 ^ 32

theorem reserve_fits {t : SecureUdpTransport ε Salt Iv} {hkdf : Except ε Unit}
    {r : NonceReservation Iv} (reserved : reserve kdf t hkdf = .ok r) : Fits r := by
  unfold reserve deriveIvPrefix at reserved
  split at reserved
  · cases hkdf with
    | error e => cases reserved
    | ok _ =>
      cases reserved
      exact ⟨rfl, rfl⟩
  · cases reserved
    exact ⟨rfl, rfl⟩

/-- A reservation in a session that is not exhausted. -/
theorem reserve_reserves (placed : WellPlaced u32Max kdf w.place)
    (usable : ¬ w.place.Exhausted u32Max) (hkdf : Except ε Unit) (buf : Bytes32) :
    Reserves u32Max kdf (drawn entropy) w.reads w.place w.place w.reads
      ((reserve kdf w.transport hkdf).toOption.map
        fun r => (sealed w.transport r buf).place) := by
  have counter_le : w.transport.counter ≤ u32Max := placed.counter
  have index_le : w.transport.prefixIndex ≤ u32Max := placed.index
  unfold reserve
  by_cases spent : w.transport.counter = u32Max
  · have room : w.transport.prefixIndex < u32Max :=
      Nat.lt_of_le_of_ne index_le fun last => usable ⟨spent, last⟩
    have exact_index : (w.transport.prefixIndex + 1) % 2 ^ 32 = w.transport.prefixIndex + 1 :=
      Nat.mod_eq_of_lt (Nat.succ_lt_succ room)
    rw [if_pos spent, exact_index]
    dsimp only [deriveIvPrefix]
    cases hkdf with
    | error e => exact .refused (Nat.le_refl _)
    | ok _ => exact .rotated spent room
  · rw [if_neg spent]
    exact .counted (Nat.lt_of_le_of_ne counter_le spent)

theorem prepareNonce_reserves (placed : WellPlaced u32Max kdf w.place) (a : SendAnswers ε)
    (buf : Bytes32) :
    Reserves u32Max kdf (drawn entropy) w.reads w.place (w.prepareNonce kdf entropy a).2.place
      (w.prepareNonce kdf entropy a).2.reads
      ((w.prepareNonce kdf entropy a).1.toOption.map
        fun r => (sealed (w.prepareNonce kdf entropy a).2.transport r buf).place) := by
  unfold prepareNonce
  by_cases exhausted : w.transport.counter = u32Max ∧ w.transport.prefixIndex = u32Max
  · rw [if_pos exhausted]
    have opens : Opens kdf (drawn entropy) w.reads w.place _ := reconnect_opens w a.session
    generalize w.reconnect kdf entropy a.session = r at opens ⊢
    obtain ⟨result, w'⟩ := r
    cases result with
    | error e => exact opens.refuses
    | ok _ =>
      have start : w'.transport.counter ≠ u32Max := fun spent =>
        absurd (opens.counter_eq_zero.symm.trans spent) (by decide)
      dsimp only
      rw [reserve, if_neg start]
      exact opens.restarts exhausted
  · rw [if_neg exhausted]
    exact reserve_reserves placed exhausted a.hkdf buf

theorem prepareNonce_fits {a : SendAnswers ε} {r : NonceReservation Iv}
    (reserved : (w.prepareNonce kdf entropy a).1 = .ok r) : Fits r := by
  unfold prepareNonce at reserved
  split at reserved
  · generalize w.reconnect kdf entropy a.session = renewal at reserved
    obtain ⟨result, w'⟩ := renewal
    cases result with
    | error e => cases reserved
    | ok _ => exact reserve_fits reserved
  · exact reserve_fits reserved

/-- Behind the frame that a reservation seals. -/
theorem place_deliver {wire : Wire Salt Iv} {r : NonceReservation Iv} {buf : Bytes32} (fits : Fits r)
    (room : r.counter < u32Max) (made : wire = sealed w.transport r buf) :
    (w.deliver wire r).place = wire.place.next := by
  have exact_counter : r.nextCounter = r.counter + 1 :=
    fits.nextCounter.trans (Nat.mod_eq_of_lt (Nat.succ_lt_succ room))
  have committed : (⟨w.transport.sessionSalt, r.nextPrefixIndex, r.nextIvPrefix, r.nextCounter⟩ :
      Place Salt Iv) = wire.place.next := by
    rw [made, sealed, Place.next, fits.ivRandom, exact_counter]
  unfold deliver
  split <;> exact committed

/-- The place, the reads and the frame of a send. -/
def outcome (r : Except (Thrown ε) (Wire Salt Iv) × World ε Salt Iv) :
    Outcome (Place Salt Iv) Salt Iv :=
  ⟨r.1.isOk, r.2.place, r.2.reads, r.1.toOption.map (·.place)⟩

theorem reads_deliver (w : World ε Salt Iv) (wire : Wire Salt Iv) (r : NonceReservation Iv) :
    (w.deliver wire r).reads = w.reads := by
  unfold deliver
  split <;> rfl

theorem emit_sends (placed : WellPlaced u32Max kdf w.place) (buf : Bytes32) (a : SendAnswers ε) :
    Sends u32Max kdf (drawn entropy) w.reads w.place (outcome (w.emit kdf entropy buf a)) := by
  have reserves : Reserves u32Max kdf (drawn entropy) w.reads w.place _ _ _ :=
    prepareNonce_reserves placed a buf
  have fits (r : NonceReservation Iv) (reserved : (w.prepareNonce kdf entropy a).1 = .ok r) :
      Fits r := prepareNonce_fits reserved
  unfold emit
  generalize w.prepareNonce kdf entropy a = prepared at reserves fits ⊢
  obtain ⟨result, w'⟩ := prepared
  cases result with
  | error e => exact reserves.fails
  | ok r =>
    cases a.encode with
    | error e => exact reserves.fails
    | ok _ =>
      have room : r.counter < u32Max := reserves.room (by decide)
      have commits : Sends u32Max kdf (drawn entropy) w.reads w.place
          ⟨true, (sealed w'.transport r buf).place.next, w'.reads,
            some (sealed w'.transport r buf).place⟩ := reserves.commits
      rw [← place_deliver (fits r rfl) room rfl, ← w'.reads_deliver (sealed w'.transport r buf) r]
        at commits
      exact commits

theorem send_sends (placed : WellPlaced u32Max kdf w.place) (buf : Bytes32) (a : SendAnswers ε) :
    Sends u32Max kdf (drawn entropy) w.reads w.place (outcome (w.send kdf entropy buf a)) := by
  unfold send takePendingError
  cases w.transport.pendingError with
  | some reported => exact .refused (Nat.le_refl _)
  | none =>
    dsimp only
    split
    · exact .refused (Nat.le_refl _)
    · exact emit_sends (w := w.takePendingError.2) placed buf a

/-! ### The queue -/

/-- The transport is as it was, or has a new socket and a new session. -/
inductive Reopened (w : World ε Salt Iv) : World ε Salt Iv → Prop where
  | kept (reads sockets : Nat) : Reopened w { w with reads, sockets }
  | renewed (salt : Salt) (ivPrefix : Iv) (reads : Nat) : Reopened w (w.renewed salt ivPrefix reads)

/-- No pending error was thrown. -/
def ThrowsOwn {α : Type} (result : Except (Thrown ε) α) : Prop :=
  ∀ reported, result ≠ .error (.pending reported)

theorem throwsOwn_environment {α : Type} (e : ε) :
    ThrowsOwn (.error (.environment e) : Except (Thrown ε) α) := by
  rintro reported ⟨⟩

theorem throwsOwn_ok {α : Type} (x : α) : ThrowsOwn (.ok x : Except (Thrown ε) α) := by
  rintro reported ⟨⟩

theorem reconnect_reopens (w : World ε Salt Iv) (a : SessionAnswers ε) :
    Reopened w (w.reconnect kdf entropy a).2 ∧ ThrowsOwn (w.reconnect kdf entropy a).1 := by
  unfold reconnect
  obtain ⟨session, reads⟩ := newSession kdf entropy a w.reads
  cases session with
  | error e => exact ⟨.kept _ _, throwsOwn_environment e⟩
  | ok session =>
    cases a.openSocket with
    | error e => exact ⟨.kept _ _, throwsOwn_environment e⟩
    | ok _ => exact ⟨.renewed _ _ _, throwsOwn_ok _⟩

theorem reserve_throws (t : SecureUdpTransport ε Salt Iv) (hkdf : Except ε Unit) :
    ThrowsOwn (reserve kdf t hkdf) := by
  unfold reserve deriveIvPrefix
  split
  · cases hkdf with
    | error e => exact throwsOwn_environment e
    | ok _ => exact throwsOwn_ok _
  · exact throwsOwn_ok _

theorem prepareNonce_reopens (w : World ε Salt Iv) (a : SendAnswers ε) :
    Reopened w (w.prepareNonce kdf entropy a).2 ∧ ThrowsOwn (w.prepareNonce kdf entropy a).1 := by
  unfold prepareNonce
  split
  · have reopens : Reopened w (w.reconnect kdf entropy a.session).2 ∧ _ :=
      reconnect_reopens w a.session
    generalize w.reconnect kdf entropy a.session = r at reopens ⊢
    obtain ⟨result, w'⟩ := r
    cases result with
    | error e => exact ⟨reopens.1, fun reported same => reopens.2 reported (by cases same; rfl)⟩
    | ok _ => exact ⟨reopens.1, reserve_throws _ _⟩
  · exact ⟨.kept w.reads w.sockets, reserve_throws _ _⟩

/-- The frames that were handed over and those that wait are the ones that sends have returned. The
queue has a bound and is empty once the socket is connected, and an error that is pending is one of
the socket. -/
structure Queued (w : World ε Salt Iv) : Prop where
  inOrder : w.handed.map Prod.snd ++ w.transport.preConnectQueue = w.returned
  bounded : w.transport.preConnectQueue.length ≤ preConnectQueueLimit
  flushed : w.transport.connected = true → w.transport.preConnectQueue = []
  ownError : ∀ reported, w.transport.pendingError = some reported →
    reported.socket = w.transport.socket

/-- One more frame can be taken. -/
def Room (w : World ε Salt Iv) : Prop :=
  w.transport.connected = true ∨ w.transport.preConnectQueue.length < preConnectQueueLimit

theorem Queued.reopened (queued : w.Queued) (reopened : w.Reopened w') : w'.Queued := by
  cases reopened with
  | kept reads sockets => exact { queued with }
  | renewed salt ivPrefix reads =>
    refine ⟨queued.inOrder, queued.bounded, ?_, ?_⟩
    · rintro ⟨⟩
    · rintro reported ⟨⟩

theorem Queued.room (queued : w.Queued) (room : w.Room) (reopened : w.Reopened w') : w'.Room := by
  cases reopened with
  | kept reads sockets => exact room
  | renewed salt ivPrefix reads =>
    refine .inr (room.elim (fun connected => ?_) id)
    have empty : (w.renewed salt ivPrefix reads).transport.preConnectQueue = [] :=
      queued.flushed connected
    rw [empty]
    exact (by decide : 0 < preConnectQueueLimit)

/-- An error that is taken is not pending any more. -/
theorem Queued.taken (queued : w.Queued) : w.takePendingError.2.Queued := by
  refine ⟨queued.inOrder, queued.bounded, queued.flushed, ?_⟩
  rintro reported ⟨⟩

/-- The frame is handed over, or goes to the end of the queue. -/
theorem Queued.deliver (queued : w.Queued) (room : w.Room) (wire : Wire Salt Iv)
    (r : NonceReservation Iv) :
    Queued { w.deliver wire r with returned := (w.deliver wire r).returned ++ [wire] } := by
  unfold World.deliver
  cases connected : w.transport.connected with
  | false =>
    refine ⟨?_, ?_, ?_, queued.ownError⟩
    · change w.handed.map Prod.snd ++ (w.transport.preConnectQueue ++ [wire]) = w.returned ++ [wire]
      rw [← List.append_assoc, queued.inOrder]
    · have below : w.transport.preConnectQueue.length < preConnectQueueLimit :=
        room.resolve_left (by simp [connected])
      change (w.transport.preConnectQueue ++ [wire]).length ≤ _
      rw [List.length_append]
      exact below
    · intro now
      exact absurd (connected.symm.trans now) (by decide)
  | true =>
    have empty := queued.flushed connected
    refine ⟨?_, queued.bounded, fun _ => empty, queued.ownError⟩
    change (w.handed ++ [(w.transport.socket, wire)]).map Prod.snd ++
      w.transport.preConnectQueue = w.returned ++ [wire]
    rw [← queued.inOrder, empty, List.map_append, List.append_nil, List.append_nil]
    rfl

theorem emit_queued (queued : w.Queued) (room : w.Room) (buf : Bytes32) (a : SendAnswers ε) :
    (settled (w.emit kdf entropy buf a)).Queued ∧ ThrowsOwn (w.emit kdf entropy buf a).1 := by
  unfold emit
  have reopens : Reopened w (w.prepareNonce kdf entropy a).2 ∧ _ := prepareNonce_reopens w a
  generalize w.prepareNonce kdf entropy a = prepared at reopens ⊢
  obtain ⟨result, w'⟩ := prepared
  obtain ⟨reopened, throws⟩ := reopens
  have reopenedQueue := queued.reopened reopened
  cases result with
  | error e => exact ⟨reopenedQueue, fun reported same => throws reported (by cases same; rfl)⟩
  | ok r =>
    cases a.encode with
    | error e => exact ⟨reopenedQueue, throwsOwn_environment e⟩
    | ok _ => exact ⟨reopenedQueue.deliver (queued.room room reopened) _ r, throwsOwn_ok _⟩

theorem send_queued (queued : w.Queued) (buf : Bytes32) (a : SendAnswers ε) :
    (settled (w.send kdf entropy buf a)).Queued ∧
      ∀ reported, (w.send kdf entropy buf a).1 = .error (.pending reported) →
        reported.socket = w.transport.socket := by
  unfold send takePendingError
  cases pending : w.transport.pendingError with
  | some reported =>
    refine ⟨queued.taken, ?_⟩
    rintro reported' ⟨⟩
    exact queued.ownError reported pending
  | none =>
    dsimp only
    split
    · refine ⟨queued.taken, ?_⟩
      rintro reported ⟨⟩
    next open_ =>
      have room : w.takePendingError.2.Room := by
        rw [not_and_or, not_not, Nat.not_le] at open_
        exact open_
      obtain ⟨after, throws⟩ := emit_queued queued.taken room buf a
      exact ⟨after, fun reported thrown => absurd thrown (throws reported)⟩

theorem drain_eq (socket : Nat) (queue : List (Wire Salt Iv)) (handed : List (Nat × Wire Salt Iv)) :
    drain socket queue handed = handed ++ queue.map (socket, ·) := by
  induction queue generalizing handed with
  | nil => rw [drain, List.map_nil, List.append_nil]
  | cons wire queue ih => rw [drain, ih, List.append_assoc, List.map_cons, List.singleton_append]

/-- The connect callback of the socket hands everything over. -/
theorem onConnect_caughtUp (queued : w.Queued) :
    (w.onConnect w.transport.socket).handed.map Prod.snd = w.returned := by
  have mine : ¬ w.transport.socket ≠ w.transport.socket := fun other => other rfl
  rw [onConnect, if_neg mine]
  dsimp only
  rw [drain_eq, List.map_append, List.map_map, ← queued.inOrder]
  exact congrArg _ (List.map_id _)

theorem onConnect_queued (queued : w.Queued) (socket : Nat) : (w.onConnect socket).Queued := by
  by_cases mine : w.transport.socket = socket
  · subst mine
    have caughtUp := onConnect_caughtUp queued
    have same : ¬ w.transport.socket ≠ w.transport.socket := fun other => other rfl
    rw [onConnect, if_neg same] at caughtUp ⊢
    refine ⟨?_, Nat.zero_le _, fun _ => rfl, queued.ownError⟩
    rw [List.append_nil]
    exact caughtUp
  · rw [onConnect, if_pos mine]
    exact queued

theorem onError_queued (queued : w.Queued) (socket : Nat) (error : ε) :
    (w.onError socket error).Queued := by
  by_cases mine : w.transport.socket = socket
  · rw [onError, if_pos mine]
    refine ⟨queued.inOrder, queued.bounded, queued.flushed, ?_⟩
    rintro reported ⟨⟩
    exact mine.symm
  · rw [onError, if_neg mine]
    exact queued

theorem Reopened.returned (reopened : w.Reopened w') : w'.returned = w.returned := by
  cases reopened <;> rfl

theorem returned_deliver (w : World ε Salt Iv) (wire : Wire Salt Iv) (r : NonceReservation Iv) :
    (w.deliver wire r).returned = w.returned := by
  unfold deliver
  split <;> rfl

theorem returned_emit (w : World ε Salt Iv) (buf : Bytes32) (a : SendAnswers ε) :
    (w.emit kdf entropy buf a).2.returned = w.returned := by
  unfold emit
  have same : (w.prepareNonce kdf entropy a).2.returned = w.returned :=
    (prepareNonce_reopens w a).1.returned
  generalize w.prepareNonce kdf entropy a = prepared at same ⊢
  obtain ⟨result, w'⟩ := prepared
  cases result with
  | error e => exact same
  | ok r =>
    cases a.encode with
    | error e => exact same
    | ok _ => exact (w'.returned_deliver _ r).trans same

theorem returned_send (w : World ε Salt Iv) (buf : Bytes32) (a : SendAnswers ε) :
    (w.send kdf entropy buf a).2.returned = w.returned := by
  unfold send takePendingError
  cases w.transport.pendingError with
  | some reported => rfl
  | none =>
    dsimp only
    split
    · rfl
    · exact w.takePendingError.2.returned_emit buf a

/-! ### Runs -/

variable (kdf entropy) in
/-- The queue is in order, and the frames of the sends stand before the next one. -/
structure Sound (number : Salt → Nat) (w : World ε Salt Iv) : Prop where
  queued : w.Queued
  ordered : Ordered u32Max kdf (drawn entropy) number w.place w.reads (w.returned.map (·.place))

variable {number : Salt → Nat}

theorem new_sound {a : SessionAnswers ε} (created : new kdf entropy a = .ok w) :
    Sound kdf entropy number w := by
  unfold new at created
  have prepares : Prepares kdf entropy 0 _ := newSession_prepares a 0
  generalize newSession kdf entropy a 0 = r at prepares created
  cases prepares with
  | failed later => cases created
  | prepared new =>
    dsimp only at created
    cases opened : a.openSocket with
    | error e =>
      rw [opened] at created
      cases created
    | ok _ =>
      rw [opened] at created
      cases created
      refine ⟨⟨rfl, Nat.zero_le _, fun _ => rfl, ?_⟩, .first new⟩
      rintro reported ⟨⟩

theorem settled_sound (fresh : Fresh (drawn entropy) number) (sound : Sound kdf entropy number w)
    (buf : Bytes32) (a : SendAnswers ε) :
    Sound kdf entropy number (settled (w.send kdf entropy buf a)) := by
  refine ⟨(send_queued sound.queued buf a).1, ?_⟩
  have sends : Sends u32Max kdf (drawn entropy) w.reads w.place _ :=
    send_sends sound.ordered.placed buf a
  have ordered := sound.ordered.sends fresh (by decide) sends
  have same : (w.send kdf entropy buf a).2.returned = w.returned := w.returned_send buf a
  generalize w.send kdf entropy buf a = r at ordered same ⊢
  obtain ⟨result, w'⟩ := r
  rw [← same] at ordered
  cases result with
  | error e => simpa [outcome, Except.toOption, settled] using ordered
  | ok wire => simpa [outcome, Except.toOption, settled, place] using ordered

theorem onError_sound (sound : Sound kdf entropy number w) (socket : Nat) (error : ε) :
    Sound kdf entropy number (w.onError socket error) := by
  refine ⟨onError_queued sound.queued socket error, ?_⟩
  unfold onError
  split <;> exact sound.ordered

theorem onConnect_sound (sound : Sound kdf entropy number w) (socket : Nat) :
    Sound kdf entropy number (w.onConnect socket) := by
  refine ⟨onConnect_queued sound.queued socket, ?_⟩
  unfold onConnect
  split <;> exact sound.ordered

theorem reconnect_sound (fresh : Fresh (drawn entropy) number) (sound : Sound kdf entropy number w)
    (a : SessionAnswers ε) : Sound kdf entropy number (w.reconnect kdf entropy a).2 := by
  have reopened : Reopened w (w.reconnect kdf entropy a).2 := (reconnect_reopens w a).1
  refine ⟨sound.queued.reopened reopened, ?_⟩
  have ordered := sound.ordered.opens fresh (reconnect_opens w a)
  rw [reopened.returned]
  simpa using ordered

theorem step_sound (fresh : Fresh (drawn entropy) number) (w : World ε Salt Iv) (event : Event ε)
    (sound : Sound kdf entropy number w) : Sound kdf entropy number (w.step kdf entropy event) := by
  cases event with
  | send buf a => exact settled_sound fresh sound buf a
  | reconnect a => exact reconnect_sound fresh sound a
  | connected socket => exact onConnect_sound sound socket
  | error socket error => exact onError_sound sound socket error
  | sendDone socket error =>
    cases error with
    | none => exact sound
    | some error => exact onError_sound sound socket error

variable (kdf entropy) in
/-- The frames of the sends that have returned are handed over once and in their order, all of them
by the time that the connect callback of the socket has run, and under different nonces. The queue
is bounded, and empty while the socket is connected. A send throws no error of another socket. -/
structure EventOrder (w : World ε Salt Iv) : Prop where
  inOrder : w.handed.map Prod.snd ++ w.transport.preConnectQueue = w.returned
  once : (w.handed.map Prod.snd).Nodup
  caughtUp : (w.step kdf entropy (.connected w.transport.socket)).handed.map Prod.snd = w.returned
  handedOver : w.transport.connected = true → w.handed.map Prod.snd = w.returned
  genuine : ∀ wire ∈ w.returned, wire.place.iv = kdf wire.place.salt wire.place.index
  distinct : (w.returned.map (·.place.nonce)).Nodup
  bounded : w.transport.preConnectQueue.length ≤ preConnectQueueLimit
  flushed : w.transport.connected = true → w.transport.preConnectQueue = []
  ownError : ∀ buf a reported, (w.send kdf entropy buf a).1 = .error (.pending reported) →
    reported.socket = w.transport.socket

theorem Sound.eventOrder (injective : Separates u32Max kdf) (sound : Sound kdf entropy number w) :
    w.EventOrder kdf entropy := by
  obtain ⟨queued, ordered⟩ := sound
  have distinct : (w.returned.map (·.place.nonce)).Nodup := by
    have nodup := ordered.nonces_nodup injective
    rwa [List.map_map] at nodup
  constructor
  · exact queued.inOrder
  · have returned : w.returned.Nodup := distinct.of_map _
    rw [← queued.inOrder] at returned
    exact (List.nodup_append.mp returned).1
  · exact onConnect_caughtUp queued
  · intro connected
    rw [← queued.inOrder, queued.flushed connected, List.append_nil]
  · intro wire sent
    exact (ordered.genuine wire.place (List.mem_map_of_mem sent)).1.iv
  · exact distinct
  · exact queued.bounded
  · exact queued.flushed
  · exact fun buf a => (send_queued queued buf a).2

end World

/-- If every salt is fresh and the derivation of prefixes is injective, then whatever the order of
the calls and the callbacks, and whatever they are answered, the events are in order. -/
theorem secure_events_in_order {kdf : Salt → Nat → Iv} {entropy : Nat → Except ε Salt}
    {number : Salt → Nat} (fresh : Fresh (drawn entropy) number)
    (injective : Separates (2 ^ 32 - 1) kdf) {a : SessionAnswers ε} {w : World ε Salt Iv}
    (created : World.new kdf entropy a = .ok w) (events : List (Event ε)) :
    (Steps.run (World.step kdf entropy) w events).EventOrder kdf entropy :=
  World.Sound.eventOrder injective
    (Steps.run_invariant (World.step_sound fresh) events (World.new_sound created))

/-- Everything that is asked of the environment succeeds. -/
def granted : SendAnswers Unit := ⟨⟨.ok (), .ok ()⟩, .ok (), .ok ()⟩

/-- The transport of the first salt, before its socket has connected. -/
def started : World Unit Nat (Nat × Nat) := ⟨⟨0, 0, (0, 0), 0, 0, false, [], none⟩, 1, 1, [], []⟩

/-- A frame waits for a socket that is replaced. Its callbacks come too late, and the new socket is
given both frames. -/
def replaced : List (Event Unit) :=
  [.send Bytes32.zero granted, .reconnect granted.session, .connected 0, .error 0 (),
    .send Bytes32.zero granted, .connected 1]

theorem secure_events_in_order_replaced :
    (Steps.run (World.step Prod.mk .ok) started replaced).handed.map (fun h => (h.1, h.2.place)) =
        [(1, ⟨0, 0, (0, 0), 0⟩), (1, ⟨1, 0, (1, 0), 0⟩)] ∧
      (Steps.run (World.step Prod.mk .ok) started replaced).EventOrder Prod.mk .ok := by
  have fresh : Fresh (drawn (.ok : Nat → Except Unit Nat)) id := by
    rintro m salt ⟨⟩
    rfl
  have injective : Separates (2 ^ 32 - 1) (Prod.mk : Nat → Nat → Nat × Nat) :=
    fun _ _ _ _ _ _ same => Prod.mk.inj same
  exact ⟨by decide, secure_events_in_order (a := granted.session) fresh injective rfl replaced⟩

end Varta.Ports.Node
