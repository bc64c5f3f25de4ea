import Smer.Server.EventLoop

/-!
# Dispatch and teardown of the event loop

`Sound` ties the map to the handlers that are alive, the kernel's set and the events that are still
to come. Every step that the kernel's promises allow keeps it (`sound_step`), so in every run each
event finds a live handler (`dispatches_of_reaches`): a handler deletes itself only, after its own
event, and an event of it comes once in a batch. The loop never asks for `EPOLLOUT`, so
`modifyHandler`, which would leave `data.fd` unset, is never called.

A connection that ends is taken out of the map and of the kernel's set and is not closed. So the
open connections and the handlers agree while no connection ends, and an event that ends one never
does all that it should (`agree_of_reaches`).

What the kernel promises about descriptors and batches is assumed of the run (`Honest`).
-/

namespace Smer

open Lib

namespace EventLoop

/-- The handler that a descriptor leads to. -/
def Leads (l : EventLoop) (fd : Int32) (ref : Nat) (h : Handler) : Prop :=
  l.handlers.lookup fd = some (some ref) ∧ l.objects.lookup ref = some h

/-- The descriptor leads to a connection's handler. -/
def Connection (l : EventLoop) (fd : Int32) : Prop := ∃ ref h, l.Leads fd ref (.echo h)

/-- What holds of the loop between any two events. -/
structure Sound (l : EventLoop) : Prop where
  noFault : l.fault = none
  /-- no pointer is null or dead -/
  live : ∀ fd v, l.handlers.lookup fd = some v →
    ∃ ref h, v = some ref ∧ l.objects.lookup ref = some h
  /-- no two descriptors share a handler -/
  distinct : ∀ fd fd' ref, l.handlers.lookup fd = some (some ref) →
    l.handlers.lookup fd' = some (some ref) → fd = fd'
  frontier : ∀ fd ref, l.handlers.lookup fd = some (some ref) → ref < l.fresh
  opened : ∀ fd v, l.handlers.lookup fd = some v → fd = l.listener ∨ fd ∈ l.clients
  listening : ∃ ref, l.Leads l.listener ref .server
  registered : ∀ fd r, l.interest.lookup fd = some r →
    (l.handlers.lookup fd).isSome ∧ r.data = some fd ∧ r.out = false
  /-- the events to come are about descriptors with a handler, each once -/
  pending : ∀ e ∈ l.batch, e.data = e.fd ∧ e.events.out = false ∧ (l.handlers.lookup e.fd).isSome
  once : (l.batch.map EpollEvent.fd).Nodup

theorem sound_started (listener : Int32) (others : List Int32) :
    (started listener others).Sound := by
  have hself : (started listener others).handlers.lookup listener = some (some 0) :=
    AList.lookup_insert _
  have hobject : (started listener others).objects.lookup 0 = some .server := AList.lookup_insert _
  have honly : ∀ fd v, (started listener others).handlers.lookup fd = some v →
      fd = listener ∧ v = some 0 := by
    intro fd v hfd
    by_cases heq : fd = listener
    · rw [heq, hself] at hfd
      exact ⟨heq, (Option.some.inj hfd).symm⟩
    · rw [started, AList.lookup_insert_ne heq] at hfd
      cases hfd
  refine
    { noFault := rfl
      live := fun fd v hfd => ?_
      distinct := fun fd fd' ref hfd hfd' => (honly fd _ hfd).1.trans (honly fd' _ hfd').1.symm
      frontier := fun fd ref hfd => ?_
      opened := fun fd v hfd => .inl (honly fd v hfd).1
      listening := ⟨0, hself, hobject⟩
      registered := fun fd r hfd => ?_
      pending := fun e he => by cases he
      once := List.nodup_nil }
  · obtain ⟨-, rfl⟩ := honly fd v hfd
    exact ⟨0, .server, rfl, hobject⟩
  · obtain ⟨-, href⟩ := honly fd _ hfd
    cases href
    exact Nat.zero_lt_one
  · by_cases heq : fd = listener
    · rw [heq] at hfd ⊢
      rw [started, AList.lookup_insert] at hfd
      cases hfd
      rw [hself]
      exact ⟨rfl, rfl, rfl⟩
    · rw [started, AList.lookup_insert_ne heq] at hfd
      cases hfd

/-! ## What keeps the loop sound -/

section Sound

variable {l : EventLoop}

theorem Sound.running (sound : l.Sound) : ¬ l.fault.isSome = true := by
  rw [sound.noFault]
  exact Bool.false_ne_true

/-- A key of the map leads to a live handler. -/
theorem Sound.leads (sound : l.Sound) {fd : Int32} (hfd : (l.handlers.lookup fd).isSome) :
    ∃ ref h, l.Leads fd ref h := by
  obtain ⟨v, hv⟩ := Option.isSome_iff_exists.mp hfd
  obtain ⟨ref, h, rfl, hlive⟩ := sound.live fd v hv
  exact ⟨ref, h, hv, hlive⟩

/-- The kernel reports a batch: each of its events is for a descriptor of the set, so it has a live
handler. -/
theorem Sound.wait (sound : l.Sound) {batch : List EpollEvent} (reported : l.Reported batch) :
    Sound { l with batch := batch } := by
  refine { sound with pending := fun e he => ?_, once := reported.once }
  obtain ⟨r, hr, hdata, -, hout⟩ := reported.registered e he
  obtain ⟨hkey, hdata', hout'⟩ := sound.registered e.fd r hr
  refine ⟨hdata e.fd hdata', ?_, hkey⟩
  rw [hout'] at hout
  exact Bool.eq_false_iff.mpr fun h => Bool.false_ne_true (hout h)

/-- The rest of a batch is no worse than the batch. -/
theorem Sound.rest (sound : l.Sound) {e : EpollEvent} {rest : List EpollEvent}
    (hbatch : l.batch = e :: rest) : Sound { l with batch := rest } := by
  refine { sound with pending := fun e' he' => ?_, once := ?_ }
  · exact sound.pending e' (by rw [hbatch]; exact List.mem_cons_of_mem _ he')
  · have honce := sound.once
    rw [hbatch, List.map_cons, List.nodup_cons] at honce
    exact honce.2

/-- A connection's handler has changed what it holds. -/
theorem Sound.setObject (sound : l.Sound) {fd : Int32} {ref : Nat} {h : EchoHandler}
    (leads : l.Leads fd ref (.echo h)) (h' : EchoHandler) :
    Sound { l with objects := l.objects.insert ref (.echo h') } := by
  have hlookup : ∀ other v, l.objects.lookup other = some v →
      ∃ v', (l.objects.insert ref (.echo h')).lookup other = some v' := by
    intro other v hv
    by_cases heq : other = ref
    · rw [heq]
      exact ⟨_, AList.lookup_insert _⟩
    · exact ⟨v, (AList.lookup_insert_ne heq).trans hv⟩
  refine { sound with live := fun fd v hv => ?_, listening := ?_ }
  · obtain ⟨other, object, rfl, hlive⟩ := sound.live fd v hv
    obtain ⟨object', hlive'⟩ := hlookup other object hlive
    exact ⟨other, object', rfl, hlive'⟩
  · obtain ⟨other, hother, hserver⟩ := sound.listening
    have hne : other ≠ ref := by
      rintro rfl
      rw [leads.2] at hserver
      cases hserver
    exact ⟨other, hother, (AList.lookup_insert_ne hne).trans hserver⟩

/-- A connection is not the listener. -/
theorem Sound.connection_ne (sound : l.Sound) {fd : Int32} (connection : l.Connection fd) :
    fd ≠ l.listener := by
  rintro rfl
  obtain ⟨ref, h, hfd, hecho⟩ := connection
  obtain ⟨other, hother, hserver⟩ := sound.listening
  obtain rfl : ref = other := Option.some.inj (Option.some.inj (hfd.symm.trans hother))
  rw [hecho] at hserver
  cases hserver

/-- A connection's handler is taken out after the last event of its descriptor in the batch. -/
theorem Sound.removeHandler (sound : l.Sound) {fd : Int32} {ref : Nat} {h : EchoHandler}
    (leads : l.Leads fd ref (.echo h)) (last : ∀ e ∈ l.batch, e.fd ≠ fd) :
    (l.removeHandler fd).Sound := by
  have hother : ∀ other v, (l.handlers.erase fd).lookup other = some v →
      other ≠ fd ∧ l.handlers.lookup other = some v := by
    intro other v hv
    by_cases heq : other = fd
    · rw [heq, AList.lookup_erase] at hv
      cases hv
    · exact ⟨heq, (AList.lookup_erase_ne heq).symm.trans hv⟩
  have hkeys : ∀ other, other ≠ fd → (l.handlers.lookup other).isSome →
      ((l.handlers.erase fd).lookup other).isSome := by
    intro other hne hsome
    rw [AList.lookup_erase_ne hne]
    exact hsome
  have hobjects : ∀ other ref', other ≠ fd → l.handlers.lookup other = some (some ref') →
      (l.objects.erase ref).lookup ref' = l.objects.lookup ref' := by
    intro other ref' hne hlead
    refine AList.lookup_erase_ne ?_
    rintro rfl
    exact hne (sound.distinct other fd ref' hlead leads.1)
  rw [removeHandler_eq l leads.1 leads.2]
  refine
    { noFault := sound.noFault
      live := fun other v hv => ?_
      distinct := fun fd₁ fd₂ ref' h₁ h₂ => ?_
      frontier := fun other ref' hlead => sound.frontier other ref' (hother other _ hlead).2
      opened := fun other v hv => sound.opened other v (hother other v hv).2
      listening := ?_
      registered := fun other r hr => ?_
      pending := fun e he => ?_
      once := sound.once }
  · obtain ⟨hne, hv⟩ := hother other v hv
    obtain ⟨ref', object, rfl, hlive⟩ := sound.live other v hv
    exact ⟨ref', object, rfl, (hobjects other ref' hne hv).trans hlive⟩
  · exact sound.distinct fd₁ fd₂ ref' (hother fd₁ _ h₁).2 (hother fd₂ _ h₂).2
  · have hne := (sound.connection_ne ⟨ref, h, leads⟩).symm
    obtain ⟨ref', hlead, hserver⟩ := sound.listening
    exact ⟨ref', (AList.lookup_erase_ne hne).trans hlead,
      (hobjects _ ref' hne hlead).trans hserver⟩
  · have hne : other ≠ fd := by
      rintro rfl
      rw [AList.lookup_erase] at hr
      cases hr
    rw [AList.lookup_erase_ne hne] at hr
    obtain ⟨hkey, hdata, hout⟩ := sound.registered other r hr
    exact ⟨hkeys other hne hkey, hdata, hout⟩
  · obtain ⟨hdata, hout, hkey⟩ := sound.pending e he
    exact ⟨hdata, hout, hkeys e.fd (last e he) hkey⟩

/-- A descriptor that is not open is not in the map. -/
theorem Sound.lookup_new (sound : l.Sound) {client : Int32} (hlistener : client ≠ l.listener)
    (hclient : client ∉ l.clients) : l.handlers.lookup client = none := by
  cases hv : l.handlers.lookup client with
  | none => rfl
  | some v => exact ((sound.opened client v hv).elim hlistener hclient).elim

/-- A new connection gets its own handler. -/
theorem serverHandle_eq (sound : l.Sound) {client : Int32} (hlistener : client ≠ l.listener)
    (hclient : client ∉ l.clients) (buffer : CharArray bufferSize) :
    l.serverHandle (some client) buffer = { l with
      handlers := l.handlers.insert client (some l.fresh)
      objects := l.objects.insert l.fresh (.echo ⟨0, buffer⟩)
      fresh := l.fresh + 1
      interest := l.interest.insert client ⟨true, false, some client⟩
      clients := client :: l.clients } := by
  have hnew : l.interest.lookup client = none := by
    cases hr : l.interest.lookup client with
    | none => rfl
    | some r =>
      have hkey := (sound.registered client r hr).1
      rw [sound.lookup_new hlistener hclient] at hkey
      cases hkey
  rw [serverHandle]
  simp only [newHandler, addHandler, hnew, Option.isSome_none, Bool.false_eq_true, if_false]

/-- Accepting a connection keeps the map, the handlers and the kernel's set tied: the new descriptor
gets its entry in all three. -/
theorem Sound.serverHandle (sound : l.Sound) {client : Int32} (hlistener : client ≠ l.listener)
    (hclient : client ∉ l.clients) (buffer : CharArray bufferSize) :
    (l.serverHandle (some client) buffer).Sound := by
  have hnone := sound.lookup_new hlistener hclient
  have hold : ∀ fd v, l.handlers.lookup fd = some v → fd ≠ client := by
    rintro fd v hv rfl
    rw [hnone] at hv
    cases hv
  have hcases : ∀ fd v, (l.handlers.insert client (some l.fresh)).lookup fd = some v →
      fd = client ∧ v = some l.fresh ∨ l.handlers.lookup fd = some v := by
    intro fd v hv
    by_cases heq : fd = client
    · rw [heq, AList.lookup_insert] at hv
      exact .inl ⟨heq, (Option.some.inj hv).symm⟩
    · exact .inr ((AList.lookup_insert_ne heq).symm.trans hv)
  have hkeep : ∀ fd v, l.handlers.lookup fd = some v →
      (l.handlers.insert client (some l.fresh)).lookup fd = some v :=
    fun fd v hv => (AList.lookup_insert_ne (hold fd v hv)).trans hv
  have hobjects : ∀ fd ref, l.handlers.lookup fd = some (some ref) →
      (l.objects.insert l.fresh (.echo ⟨0, buffer⟩)).lookup ref = l.objects.lookup ref :=
    fun fd ref hlead => AList.lookup_insert_ne (sound.frontier fd ref hlead).ne
  rw [serverHandle_eq sound hlistener hclient]
  refine
    { noFault := sound.noFault
      live := fun fd v hv => ?_
      distinct := fun fd fd' ref h h' => ?_
      frontier := fun fd ref hlead => ?_
      opened := fun fd v hv => ?_
      listening := ?_
      registered := fun fd r hr => ?_
      pending := fun e he => ?_
      once := sound.once }
  · rcases hcases fd v hv with ⟨-, rfl⟩ | hv
    · exact ⟨l.fresh, _, rfl, AList.lookup_insert _⟩
    · obtain ⟨ref, object, rfl, hlive⟩ := sound.live fd v hv
      exact ⟨ref, object, rfl, (hobjects fd ref hv).trans hlive⟩
  · -- the new handler's address is above all that are in the map
    rcases hcases fd _ h with ⟨rfl, href⟩ | hlead
    · rcases hcases fd' _ h' with ⟨rfl, -⟩ | hlead'
      · rfl
      · cases href
        exact absurd (sound.frontier fd' _ hlead') (Nat.lt_irrefl _)
    · rcases hcases fd' _ h' with ⟨rfl, href⟩ | hlead'
      · cases href
        exact absurd (sound.frontier fd _ hlead) (Nat.lt_irrefl _)
      · exact sound.distinct fd fd' ref hlead hlead'
  · rcases hcases fd _ hlead with ⟨-, href⟩ | hlead
    · cases href
      exact Nat.lt_succ_self _
    · exact (sound.frontier fd ref hlead).trans (Nat.lt_succ_self _)
  · rcases hcases fd v hv with ⟨rfl, -⟩ | hv
    · exact .inr List.mem_cons_self
    · exact (sound.opened fd v hv).imp_right (List.mem_cons_of_mem _)
  · obtain ⟨ref, hlead, hserver⟩ := sound.listening
    exact ⟨ref, hkeep _ _ hlead, (hobjects _ ref hlead).trans hserver⟩
  · by_cases heq : fd = client
    · rw [heq] at hr ⊢
      rw [AList.lookup_insert] at hr
      cases hr
      rw [AList.lookup_insert]
      exact ⟨rfl, rfl, rfl⟩
    · rw [AList.lookup_insert_ne heq] at hr
      rw [AList.lookup_insert_ne heq]
      exact sound.registered fd r hr
  · obtain ⟨hdata, hout, hkey⟩ := sound.pending e he
    obtain ⟨v, hv⟩ := Option.isSome_iff_exists.mp hkey
    exact ⟨hdata, hout, by rw [hkeep e.fd v hv]; rfl⟩

/-- The kernel never asks a connection's handler to write, so its event is a read, a removal or
nothing. -/
theorem echoHandle_eq {fd : Int32} {ref : Nat} {h : EchoHandler} {e : Events}
    {read : Option Bytes} (hout : e.out = false) :
    l.echoHandle fd ref h e read =
      if (h.handle e read).removed then
        { l with objects := l.objects.insert ref (.echo (h.handle e read).handler) }.removeHandler fd
      else { l with objects := l.objects.insert ref (.echo (h.handle e read).handler) } := by
  rw [echoHandle]
  simp only [hout, Bool.and_false, Bool.false_eq_true, if_false]

/-- A batch is taken when the last one is done. -/
theorem step_wait {l' : EventLoop} {batch : List EpollEvent} (h : l.step (.wait batch) = some l') :
    l' = { l with batch := batch } := by
  unfold step at h
  split at h
  · cases h
  · obtain ⟨-, h⟩ := Option.ite_none_right_eq_some.mp h
    exact (Option.some.inj h).symm

theorem step_others {l' : EventLoop} {fds : List Int32} (h : l.step (.others fds) = some l') :
    l' = { l with others := fds } := by
  unfold step at h
  split at h
  · cases h
  · exact (Option.some.inj h).symm

/-- What a step handles: the first event of the batch, through a live handler. -/
theorem Sound.handle_cases (sound : l.Sound) {accepted : Option Int32}
    {buffer : CharArray bufferSize} {read : Option Bytes} {l' : EventLoop}
    (hstep : l.step (.handle accepted buffer read) = some l') :
    ∃ e rest ref, l.batch = e :: rest ∧ e.data = e.fd ∧ e.events.out = false ∧
      (∀ e' ∈ rest, e'.fd ≠ e.fd) ∧
      (l.Leads e.fd ref .server ∧ l' = { l with batch := rest }.serverHandle accepted buffer ∨
        ∃ h, l.Leads e.fd ref (.echo h) ∧
          l' = { l with batch := rest }.echoHandle e.fd ref h e.events read) := by
  rw [step, if_neg sound.running] at hstep
  cases hbatch : l.batch with
  | nil =>
    rw [hbatch] at hstep
    cases hstep
  | cons e rest =>
    rw [hbatch] at hstep
    cases hstep
    obtain ⟨hdata, hout, hkey⟩ := sound.pending e (by rw [hbatch]; exact List.mem_cons_self)
    have honce := sound.once
    rw [hbatch, List.map_cons, List.nodup_cons] at honce
    have hlater : ∀ e' ∈ rest, e'.fd ≠ e.fd := fun e' he' heq =>
      honce.1 (List.mem_map.mpr ⟨e', he', heq⟩)
    obtain ⟨ref, h, hfd, hlive⟩ := sound.leads hkey
    refine ⟨e, rest, ref, rfl, hdata, hout, hlater, ?_⟩
    have hlead : { l with batch := rest }.handlers.lookup e.data = some (some ref) := by
      rw [hdata]
      exact hfd
    cases h with
    | server => exact .inl ⟨⟨hfd, hlive⟩, dispatch_server _ hlead hlive⟩
    | echo h =>
      refine .inr ⟨h, ⟨hfd, hlive⟩, (dispatch_echo _ hlead hlive).trans ?_⟩
      rw [hdata]

/-- **Every step that the kernel allows keeps the loop sound.** -/
theorem sound_step {l' : EventLoop} {a : LoopAction} (sound : l.Sound) (honest : l.Honest a)
    (hstep : l.step a = some l') : l'.Sound := by
  cases a with
  | wait batch =>
    obtain rfl := step_wait hstep
    exact sound.wait honest
  | others fds =>
    obtain rfl := step_others hstep
    exact { sound with }
  | handle accepted buffer read =>
    obtain ⟨e, rest, ref, hbatch, -, hout, hlater, ⟨-, rfl⟩ | ⟨h, hleads, rfl⟩⟩ :=
      sound.handle_cases hstep
    · cases accepted with
      | none => exact sound.rest hbatch
      | some client =>
        obtain ⟨-, hlistener, hclient, -⟩ := honest client rfl
        exact (sound.rest hbatch).serverHandle hlistener hclient buffer
    · have hset := (sound.rest hbatch).setObject hleads (h.handle e.events read).handler
      rw [echoHandle_eq hout]
      split
      · exact hset.removeHandler ⟨hleads.1, AList.lookup_insert _⟩ hlater
      · exact hset

end Sound

/-! ## Dispatch -/

/-- No fault has happened, no entry of the map is null, and each event to come finds a live handler
under its `data.fd`. -/
structure Dispatches (l : EventLoop) : Prop where
  noFault : l.fault = none
  noEmpty : ∀ fd, l.handlers.lookup fd ≠ some none
  finds : ∀ e ∈ l.batch, ∃ ref h, l.Leads e.data ref h

theorem Sound.dispatches {l : EventLoop} (sound : l.Sound) : l.Dispatches where
  noFault := sound.noFault
  noEmpty := fun fd hfd => by
    obtain ⟨ref, h, hnull, -⟩ := sound.live fd none hfd
    cases hnull
  finds := fun e he => by
    obtain ⟨hdata, -, hkey⟩ := sound.pending e he
    rw [hdata]
    exact sound.leads hkey

/-- **In every run, each event finds a live handler.** -/
theorem dispatches_of_reaches {listener : Int32} {others : List Int32} {l : EventLoop}
    (reach : Reaches step Honest (started listener others) l) : l.Dispatches :=
  (reach.invariant (sound_started listener others)
    fun _ _ _ sound honest hstep => sound_step sound honest hstep).dispatches

/-- The event of a batch of one. -/
def readable (fd : Int32) : EpollEvent := ⟨fd, fd, .epollin⟩

/-- The listener 3 becomes readable, and `accept` returns 4. -/
def acceptedFour : EventLoop :=
  { started 3 [0, 1, 2] with batch := [] }.serverHandle (some 4) (.fill _ 0)

theorem reaches_acceptedFour : Reaches step Honest (started 3 [0, 1, 2]) acceptedFour := by
  have hwait : Honest (started 3 [0, 1, 2]) (.wait [readable 3]) := by
    refine ⟨List.nodup_singleton _, fun e he => ?_⟩
    rw [List.mem_singleton.mp he]
    exact ⟨⟨true, false, some 3⟩, rfl, fun data hdata => Option.some.inj hdata, fun _ => rfl, id⟩
  have haccept : Honest { started 3 [0, 1, 2] with batch := [readable 3] }
      (.handle (some 4) (.fill _ 0) none) := by
    intro client hclient
    obtain rfl : 4 = client := Option.some.inj hclient
    exact ⟨by decide, by decide, List.not_mem_nil, by decide⟩
  exact .step (.step .refl hwait rfl) haccept rfl

theorem dispatches_acceptedFour : acceptedFour.Dispatches :=
  dispatches_of_reaches reaches_acceptedFour

/-! ## The loop without its pointers -/

/-- The handler under a descriptor, through the map's pointer. -/
def handlerAt (l : EventLoop) (fd : Int32) : Option Handler :=
  (l.handlers.lookup fd).join.bind l.objects.lookup

/-- `IOLoop` is the loop with its pointers followed, and its own descriptors only. -/
structure Shows (l : EventLoop) (io : IOLoop) : Prop where
  handlers : ∀ fd, io.handlers.lookup fd = l.handlerAt fd
  opened : ∀ fd, fd ∈ io.opened ↔ fd = l.listener ∨ fd ∈ l.clients

section Shows

variable {l : EventLoop} {io : IOLoop}

theorem Leads.handlerAt {fd : Int32} {ref : Nat} {h : Handler} (leads : l.Leads fd ref h) :
    l.handlerAt fd = some h := by
  rw [EventLoop.handlerAt, leads.1]
  exact leads.2

/-- A descriptor leads to the same handler among other objects that have it. -/
theorem Sound.handlerAt_eq (sound : l.Sound) {fd : Int32} {objects : AList fun _ : Nat => Handler}
    (same : ∀ ref, l.handlers.lookup fd = some (some ref) →
      objects.lookup ref = l.objects.lookup ref) :
    (l.handlers.lookup fd).join.bind (fun ref => objects.lookup ref) = l.handlerAt fd := by
  rw [handlerAt]
  cases hv : l.handlers.lookup fd with
  | none => rfl
  | some v =>
    obtain ⟨ref, h, rfl, -⟩ := sound.live fd v hv
    exact same ref hv

/-- Another descriptor's handler is another. -/
theorem Sound.ref_ne (sound : l.Sound) {fd other : Int32} {ref ref' : Nat} {h : Handler}
    (leads : l.Leads fd ref h) (hne : other ≠ fd)
    (hother : l.handlers.lookup other = some (some ref')) : ref' ≠ ref := by
  rintro rfl
  exact hne (sound.distinct other fd ref' hother leads.1)

/-- An accepted connection is accepted by `IOLoop`. -/
theorem Shows.serverHandle (shows : l.Shows io) (sound : l.Sound) {fd client : Int32} {ref : Nat}
    (leads : l.Leads fd ref .server) (hclient : ¬ client < 0 ∧ client ≠ l.listener ∧
      client ∉ l.clients) (buffer : CharArray bufferSize) :
    ∃ io', io.accept fd client buffer = some io' ∧
      (l.serverHandle (some client) buffer).Shows io' := by
  obtain ⟨hneg, hlistener, hnew⟩ := hclient
  have hserver : io.handlers.lookup fd = some .server := (shows.handlers fd).trans leads.handlerAt
  have hopen : ¬ (client < 0 ∨ client ∈ io.opened) := by
    rw [shows.opened, not_or, not_or]
    exact ⟨hneg, hlistener, hnew⟩
  have hleads : (l.serverHandle (some client) buffer).Leads client l.fresh (.echo ⟨0, buffer⟩) := by
    rw [serverHandle_eq sound hlistener hnew]
    exact ⟨AList.lookup_insert _, AList.lookup_insert _⟩
  refine ⟨_, by simp only [IOLoop.accept, hserver, if_neg hopen]; rfl, fun other => ?_, ?_⟩
  · by_cases heq : other = client
    · rw [heq, hleads.handlerAt]
      exact AList.lookup_insert _
    · refine (AList.lookup_insert_ne heq).trans ?_
      rw [shows.handlers, ← sound.handlerAt_eq fun ref' hv =>
        AList.lookup_insert_ne (sound.frontier other ref' hv).ne,
        serverHandle_eq sound hlistener hnew, handlerAt, AList.lookup_insert_ne heq]
  · intro other
    rw [serverHandle_eq sound hlistener hnew]
    refine List.mem_cons.trans ?_
    rw [shows.opened, List.mem_cons]
    exact or_left_comm

/-- A handler that has changed what it holds, and not where it is, shows the same loop with that
handler changed. -/
theorem Shows.setObject (shows : l.Shows io) (sound : l.Sound) {fd : Int32} {ref : Nat}
    {h : EchoHandler} (leads : l.Leads fd ref (.echo h)) (h' : EchoHandler) :
    Shows { l with objects := l.objects.insert ref (.echo h') } (io.addHandler fd (.echo h')) := by
  have hleads : Leads { l with objects := l.objects.insert ref (.echo h') } fd ref (.echo h') :=
    ⟨leads.1, AList.lookup_insert _⟩
  refine ⟨fun other => ?_, shows.opened⟩
  by_cases heq : other = fd
  · rw [heq, hleads.handlerAt]
    exact AList.lookup_insert _
  · refine (AList.lookup_insert_ne heq).trans ?_
    rw [shows.handlers]
    exact (sound.handlerAt_eq fun ref' hv =>
      AList.lookup_insert_ne (sound.ref_ne leads heq hv)).symm

theorem Shows.removeHandler (shows : l.Shows io) (sound : l.Sound) {fd : Int32} {ref : Nat}
    {h : EchoHandler} (leads : l.Leads fd ref (.echo h)) :
    (l.removeHandler fd).Shows (io.removeHandler fd) := by
  rw [removeHandler_eq l leads.1 leads.2]
  refine ⟨fun other => ?_, shows.opened⟩
  rw [IOLoop.removeHandler, handlerAt]
  by_cases heq : other = fd
  · rw [heq, AList.lookup_erase, AList.lookup_erase]
    rfl
  · rw [AList.lookup_erase_ne heq, AList.lookup_erase_ne heq, shows.handlers]
    exact (sound.handlerAt_eq fun ref' hv =>
      AList.lookup_erase_ne (sound.ref_ne leads heq hv)).symm

/-- A step of `IOLoop`, the loop without pointers: it accepts a connection, or it handles an event.
-/
def Moves (io io' : IOLoop) : Prop :=
  (∃ listener client buffer, io.accept listener client buffer = some io') ∨
    ∃ fd e read passed, io.ready fd e read = some (io', passed)

/-- What a dispatch does is nothing or a step of `IOLoop`. -/
theorem shows_handle (shows : l.Shows io) (sound : l.Sound) {accepted : Option Int32}
    {buffer : CharArray bufferSize} {read : Option Bytes}
    (honest : l.Honest (.handle accepted buffer read)) {l' : EventLoop}
    (hstep : l.step (.handle accepted buffer read) = some l') :
    ∃ io', l'.Shows io' ∧ (io' = io ∨ Moves io io') := by
  obtain ⟨e, rest, ref, hbatch, -, hout, -, ⟨hleads, rfl⟩ | ⟨h, hleads, rfl⟩⟩ :=
    sound.handle_cases hstep
  · cases accepted with
    | none => exact ⟨io, ⟨shows.handlers, shows.opened⟩, .inl rfl⟩
    | some client =>
      obtain ⟨hneg, hlistener, hclient, -⟩ := honest client rfl
      obtain ⟨io', haccept, hshows⟩ := Shows.serverHandle (l := { l with batch := rest })
        ⟨shows.handlers, shows.opened⟩ (sound.rest hbatch) hleads ⟨hneg, hlistener, hclient⟩ buffer
      exact ⟨io', hshows, .inr (.inl ⟨e.fd, client, buffer, haccept⟩)⟩
  · have hecho : io.handlers.lookup e.fd = some (.echo h) :=
      (shows.handlers e.fd).trans hleads.handlerAt
    have hset := Shows.setObject (l := { l with batch := rest }) ⟨shows.handlers, shows.opened⟩
      (sound.rest hbatch) hleads (h.handle e.events read).handler
    have hsound := (sound.rest hbatch).setObject hleads (h.handle e.events read).handler
    rw [echoHandle_eq hout]
    split
    · rename_i hremoved
      refine ⟨_, hset.removeHandler hsound ⟨hleads.1, AList.lookup_insert _⟩,
        .inr (.inr ⟨e.fd, e.events, read, (h.handle e.events read).passed, ?_⟩)⟩
      simp only [IOLoop.ready, hecho, hout, hremoved, Bool.false_eq_true, if_false, if_true]
    · rename_i hremoved
      refine ⟨_, hset, .inr (.inr ⟨e.fd, e.events, read, (h.handle e.events read).passed, ?_⟩)⟩
      simp only [IOLoop.ready, hecho, hout, if_neg hremoved, Bool.false_eq_true, if_false]

/-- **`IOLoop` simulates the loop**: a run of the loop is a run of `IOLoop` from its listener. -/
theorem shows_of_reaches {listener : Int32} {others : List Int32}
    (reach : Reaches step Honest (started listener others) l) :
    ∃ io, Relation.ReflTransGen Moves ⟨AList.insert listener .server ∅, [listener]⟩ io ∧
      l.Shows io := by
  have hstart : (started listener others).Shows ⟨AList.insert listener .server ∅, [listener]⟩ := by
    refine ⟨fun fd => ?_, fun fd => ?_⟩
    · by_cases heq : fd = listener
      · obtain ⟨ref, hleads⟩ := (sound_started listener others).listening
        rw [heq]
        exact (AList.lookup_insert _).trans hleads.handlerAt.symm
      · rw [AList.lookup_insert_ne heq, handlerAt, started, AList.lookup_insert_ne heq]
        rfl
    · exact List.mem_singleton.trans (or_iff_left List.not_mem_nil).symm
  refine (reach.invariant (I := fun l => l.Sound ∧ ∃ io, Relation.ReflTransGen Moves
    ⟨AList.insert listener .server ∅, [listener]⟩ io ∧ l.Shows io)
    ⟨sound_started listener others, _, .refl, hstart⟩ ?_).2
  rintro l l' a ⟨sound, io, hmoves, shows⟩ honest hstep
  refine ⟨sound_step sound honest hstep, ?_⟩
  cases a with
  | wait batch =>
    obtain rfl := step_wait hstep
    exact ⟨io, hmoves, shows.handlers, shows.opened⟩
  | others fds =>
    obtain rfl := step_others hstep
    exact ⟨io, hmoves, shows.handlers, shows.opened⟩
  | handle accepted buffer read =>
    obtain ⟨io', hshows, rfl | hmove⟩ := shows_handle shows sound honest hstep
    · exact ⟨io', hmoves, hshows⟩
    · exact ⟨io', hmoves.tail hmove, hshows⟩

end Shows

/-! ## Teardown -/

/-- An event that ends its connection: a hang-up, an error, or a read that fails or finds the peer
closed. -/
def Ending (e : Events) (read : Option Bytes) : Prop :=
  e.hup ∨ e.err ∨ (e.inn ∧ read.getD [] = [])

/-- A step handles an event that ends the connection `fd`. -/
def EndsAt (l : EventLoop) (a : LoopAction) (fd : Int32) : Prop :=
  ∃ accepted buffer read e rest, a = .handle accepted buffer read ∧ l.batch = e :: rest ∧
    e.fd = fd ∧ l.Connection fd ∧ Ending e.events read

/-- No connection ends in the step. -/
def NoneEnds (l : EventLoop) (a : LoopAction) : Prop := ∀ fd, ¬ l.EndsAt a fd

/-- The open connections are the connections of the map. -/
def Agree (l : EventLoop) : Prop := ∀ fd, fd ∈ l.clients ↔ l.Connection fd

/-- A connection that ended is closed and in neither the map nor the kernel's set, and the others
are as they were. -/
def TearsDown (l : EventLoop) (a : LoopAction) (l' : EventLoop) : Prop :=
  ∀ fd, l.EndsAt a fd → fd ∉ l'.clients ∧ l'.handlers.lookup fd = none ∧
    l'.interest.lookup fd = none ∧ ∀ other, other ≠ fd →
      (other ∈ l'.clients ↔ other ∈ l.clients) ∧
      l'.handlers.lookup other = l.handlers.lookup other ∧
      l'.interest.lookup other = l.interest.lookup other

section Teardown

variable {l l' : EventLoop} {a : LoopAction}

theorem agree_started (listener : Int32) (others : List Int32) :
    (started listener others).Agree := by
  intro fd
  refine iff_of_false List.not_mem_nil ?_
  intro connection
  have hne : fd ≠ listener := (sound_started listener others).connection_ne connection
  obtain ⟨ref, h, hfd, -⟩ := connection
  rw [started, AList.lookup_insert_ne hne] at hfd
  cases hfd

/-- A handler that has changed what it holds is a connection's as before. -/
theorem Agree.setObject (agree : l.Agree) {fd : Int32} {ref : Nat} {h h' : EchoHandler}
    (leads : l.Leads fd ref (.echo h)) :
    Agree { l with objects := l.objects.insert ref (.echo h') } := by
  intro other
  refine (agree other).trans ⟨?_, ?_⟩
  · rintro ⟨ref', echo, hother, hlive⟩
    by_cases heq : ref' = ref
    · rw [heq] at hother
      exact ⟨ref, h', hother, AList.lookup_insert _⟩
    · exact ⟨ref', echo, hother, (AList.lookup_insert_ne heq).trans hlive⟩
  · rintro ⟨ref', echo, hother, hlive⟩
    by_cases heq : ref' = ref
    · rw [heq] at hother
      exact ⟨ref, h, hother, leads.2⟩
    · exact ⟨ref', echo, hother, (AList.lookup_insert_ne heq).symm.trans hlive⟩

/-- An accepted connection is open and in the map. -/
theorem Agree.serverHandle (agree : l.Agree) (sound : l.Sound) {client : Int32}
    (hlistener : client ≠ l.listener) (hclient : client ∉ l.clients)
    (buffer : CharArray bufferSize) : (l.serverHandle (some client) buffer).Agree := by
  have hfrontier := sound.frontier
  rw [serverHandle_eq sound hlistener hclient]
  intro fd
  refine List.mem_cons.trans ?_
  by_cases heq : fd = client
  · rw [heq]
    exact iff_of_true (.inl rfl) ⟨_, _, AList.lookup_insert _, AList.lookup_insert _⟩
  · rw [or_iff_right heq, agree fd]
    have hkeep : (l.handlers.insert client (some l.fresh)).lookup fd = l.handlers.lookup fd :=
      AList.lookup_insert_ne heq
    have hobject : ∀ ref, l.handlers.lookup fd = some (some ref) →
        (l.objects.insert l.fresh (.echo ⟨0, buffer⟩)).lookup ref = l.objects.lookup ref :=
      fun ref hlead => AList.lookup_insert_ne (hfrontier fd ref hlead).ne
    constructor
    · rintro ⟨ref, h, hlead, hlive⟩
      exact ⟨ref, h, hkeep.trans hlead, (hobject ref hlead).trans hlive⟩
    · rintro ⟨ref, h, hlead, hlive⟩
      have hlead' := hkeep.symm.trans hlead
      exact ⟨ref, h, hlead', (hobject ref hlead').symm.trans hlive⟩

/-- A step in which no connection ends keeps the agreement. -/
theorem agree_step (sound : l.Sound) (agree : l.Agree) (honest : l.Honest a)
    (stays : l.NoneEnds a) (hstep : l.step a = some l') : l'.Agree := by
  cases a with
  | wait batch =>
    obtain rfl := step_wait hstep
    exact agree
  | others fds =>
    obtain rfl := step_others hstep
    exact agree
  | handle accepted buffer read =>
    obtain ⟨e, rest, ref, hbatch, -, hout, -, ⟨-, rfl⟩ | ⟨h, hleads, rfl⟩⟩ :=
      sound.handle_cases hstep
    · cases accepted with
      | none => exact agree
      | some client =>
        obtain ⟨-, hlistener, hclient, -⟩ := honest client rfl
        exact Agree.serverHandle (l := { l with batch := rest }) agree (sound.rest hbatch) hlistener
          hclient buffer
    · have hremains : ¬ (h.handle e.events read).removed = true := by
        intro hremoved
        refine stays e.fd ⟨accepted, buffer, read, e, rest, rfl, hbatch, rfl, ⟨ref, h, hleads⟩, ?_⟩
        rcases (h.handle_removed_iff e.events read).mp hremoved with hhup | ⟨-, hinn, hread⟩
        · exact .inl hhup
        · exact .inr (.inr ⟨hinn, hread⟩)
      rw [echoHandle_eq hout, if_neg hremains]
      exact Agree.setObject (l := { l with batch := rest }) agree hleads

/-- No step closes a connection. -/
theorem clients_step (sound : l.Sound) (honest : l.Honest a) (hstep : l.step a = some l') :
    l.clients ⊆ l'.clients := by
  cases a with
  | wait batch =>
    obtain rfl := step_wait hstep
    exact List.Subset.refl _
  | others fds =>
    obtain rfl := step_others hstep
    exact List.Subset.refl _
  | handle accepted buffer read =>
    obtain ⟨e, rest, ref, hbatch, -, hout, -, ⟨-, rfl⟩ | ⟨h, hleads, rfl⟩⟩ :=
      sound.handle_cases hstep
    · cases accepted with
      | none => exact List.Subset.refl _
      | some client =>
        obtain ⟨-, hlistener, hclient, -⟩ := honest client rfl
        rw [serverHandle_eq (sound.rest hbatch) hlistener hclient]
        exact List.subset_cons_self _ _
    · rw [echoHandle_eq hout]
      split
      · rw [removeHandler_clients]
        exact List.Subset.refl _
      · exact List.Subset.refl _

/-- An event that ends a connection never tears it down. -/
theorem tearsDown_iff (sound : l.Sound) (honest : l.Honest a) (hstep : l.step a = some l') :
    l.TearsDown a l' ↔ l.NoneEnds a := by
  constructor
  · intro tears fd ends
    obtain ⟨-, -, -, -, -, -, -, -, connection, -⟩ := id ends
    obtain ⟨ref, h, hlead, -⟩ := id connection
    have hopen : fd ∈ l.clients :=
      (sound.opened fd _ hlead).resolve_left (sound.connection_ne connection)
    exact (tears fd ends).1 (clients_step sound honest hstep hopen)
  · intro stays fd ends
    exact absurd ends (stays fd)

/-- **The open connections agree with the map in every run in which no connection ends**, and a step
tears down the connection that it ends exactly when it ends none. -/
theorem agree_of_reaches (listener : Int32) (others : List Int32) :
    (∀ l, Reaches step (fun l a => l.Honest a ∧ l.NoneEnds a) (started listener others) l →
      l.Agree) ∧
    ∀ l a l', Reaches step Honest (started listener others) l → l.Honest a →
      l.step a = some l' → (l.TearsDown a l' ↔ l.NoneEnds a) := by
  constructor
  · intro l reach
    refine (reach.invariant (I := fun l => l.Sound ∧ l.Agree)
      ⟨sound_started listener others, agree_started listener others⟩ ?_).2
    rintro l l' a ⟨sound, agree⟩ ⟨honest, stays⟩ hstep
    exact ⟨sound_step sound honest hstep, agree_step sound agree honest stays hstep⟩
  · intro l a l' reach honest hstep
    have sound := reach.invariant (sound_started listener others)
      fun _ _ _ sound honest hstep => sound_step sound honest hstep
    exact tearsDown_iff sound honest hstep

/-- A client connects and hangs up: its descriptor is open and not in the map. -/
theorem not_agree_hangUp :
    ¬ ∀ (listener : Int32) (others : List Int32) (l : EventLoop),
      Reaches step Honest (started listener others) l → l.Agree := by
  intro claim
  have hwait : Honest acceptedFour (.wait [⟨4, 4, ⟨true, false, false, false⟩⟩]) := by
    refine ⟨List.nodup_singleton _, fun e he => ?_⟩
    rw [List.mem_singleton.mp he]
    exact ⟨⟨true, false, some 4⟩, rfl, fun data hdata => Option.some.inj hdata, fun _ => rfl, id⟩
  have hhandle : Honest { acceptedFour with batch := [⟨4, 4, ⟨true, false, false, false⟩⟩] }
      (.handle none (.fill _ 0) none) := by
    rintro client ⟨⟩
  have agree := claim 3 [0, 1, 2] _ (.step (.step reaches_acceptedFour hwait rfl) hhandle rfl)
  obtain ⟨ref, h, hlead, -⟩ := (agree 4).mp List.mem_cons_self
  cases hlead

end Teardown

end EventLoop

end Smer
