import WsnContest.Car.Driver

/-! What `CarP` puts on the UART. An accepted command should go out whole when its
grant comes; but a refused one sets the length of the frame before it looks
whether it may, so a query called in between truncates a drive command and a
drive command called in between lengthens a query. -/
namespace WsnContest.CarP
open Tinyos Lib

/-- The accepted command whose request the arbiter has noted, and those granted
so far. -/
structure Ledger where
  waiting : Option Command := none
  granted : List Command := []
  deriving DecidableEq, Repr

/-- A command accepted while another waits adds no request. -/
def Ledger.note (l : Ledger) : Output → Ledger
  | .accepted c => { l with waiting := l.waiting.or (some c) }
  | .wrote _ => ⟨none, l.granted ++ l.waiting.toList⟩
  | .refused _ | .readDone _ _ | .startDone _ | .stopDone _ => l

def ledger (out : List Output) : Ledger := out.foldl Ledger.note {}

def Output.bytes? : Output → Option (List Word8)
  | .wrote bytes => some bytes
  | _ => none

/-- The byte strings handed to the UART. -/
def written (out : List Output) : List (List Word8) := out.filterMap Output.bytes?

@[simp] theorem ledger_append (out : List Output) (o : Output) :
    ledger (out ++ [o]) = (ledger out).note o := by
  simp [ledger]

@[simp] theorem written_append (out : List Output) (o : Output) :
    written (out ++ [o]) = written out ++ o.bytes?.toList := by
  cases h : o.bytes? <;> simp [written, h]

/-- No command is accepted while another waits for its grant, and at a grant the
length last set is that of the waiting command. -/
def Undisturbed (s : State × List Output) : Event → Prop
  | .command _ _ => s.1.requested = true → s.1.ready = false
  | .granted _ => s.1.cmdlength = if s.1.carCommand.getD 2 0 = Op.quiryReader then 4 else 7
  | _ => True

/-- The buffer holds the command that waits, and what was written was granted. -/
structure Faithful (s : State × List Output) : Prop where
  framed : Framed s.1.carCommand
  waiting : s.1.requested = (ledger s.2).waiting.isSome
  holds : ∀ c ∈ (ledger s.2).waiting, s.1.carCommand.getD 2 0 = c.op ∧
    s.1.carCommand.take c.length = c.encode
  written : written s.2 = (ledger s.2).granted.map Command.encode

theorem faithful_init : Faithful machine.system.init := by
  refine ⟨⟨1, 0, 0, rfl⟩, rfl, ?_, rfl⟩
  intro c hc
  cases hc

/-- A step that touches neither the buffer nor the request. -/
theorem Faithful.keep {s : State × List Output} {t : State} {out : List Output} (h : Faithful s)
    (hcarCommand : t.carCommand = s.1.carCommand) (hrequested : t.requested = s.1.requested)
    (hledger : ledger (s.2 ++ out) = ledger s.2)
    (hwritten : CarP.written (s.2 ++ out) = CarP.written s.2) : Faithful (t, s.2 ++ out) := by
  refine ⟨hcarCommand ▸ h.framed, ?_, ?_, ?_⟩
  · rw [hledger]
    exact hrequested.trans h.waiting
  · rw [hledger, hcarCommand]
    exact h.holds
  · rw [hledger, hwritten]
    exact h.written

theorem faithful_effect {s : State × List Output} {t : State} {e : Event} {out : List Output}
    (h : Effect s.1 e t out) (hs : Faithful s) (hallowed : Undisturbed s e) :
    Faithful (t, s.2 ++ out) := by
  cases h with
  | start => exact hs.keep rfl rfl (by simp [Ledger.note]) (by simp [Output.bytes?])
  | stop => exact hs.keep rfl rfl (by simp [Ledger.note]) (by simp [Output.bytes?])
  | @accepted c irqs hready =>
    have hidle : (ledger s.2).waiting = none := by
      have hrequested : s.1.requested = false :=
        Bool.eq_false_iff.mpr fun hbusy => by simp [hallowed hbusy] at hready
      simpa [hs.waiting] using hrequested
    obtain ⟨hframed, hop, hencode⟩ := framed_fill hs.framed c
    refine ⟨hframed, ?_, ?_, ?_⟩
    · simp [Ledger.note, hidle]
    · intro d hd
      obtain rfl : c = d := by simpa [Ledger.note, hidle] using hd
      exact ⟨hop, hencode⟩
    · simpa [Ledger.note, Output.bytes?] using hs.written
  | refused hready ht =>
    refine hs.keep ?_ ht.requested (by simp [Ledger.note]) (by simp [Output.bytes?])
    exact ht.carCommand.trans (framed_stamp hs.framed)
  | @granted irqs u hrequested howner ht =>
    obtain ⟨c, hc⟩ : ∃ c, (ledger s.2).waiting = some c :=
      Option.isSome_iff_exists.mp (hs.waiting ▸ hrequested)
    obtain ⟨hop, hencode⟩ := hs.holds c hc
    have hlength : s.1.cmdlength = c.length := by
      rw [← length_of_op c, ← hop]
      exact hallowed
    have hheard := heard_rxAll irqs { s.1 with requested := false, owner := true }
    rw [← ht] at hheard
    have ht' : (if s.1.cmdlength = 4 then { u with timer1 := true }
        else clearSend (release u)).carCommand = s.1.carCommand ∧
        (if s.1.cmdlength = 4 then { u with timer1 := true }
        else clearSend (release u)).requested = false := by
      split <;> exact ⟨hheard.carCommand, hheard.requested⟩
    refine ⟨ht'.1 ▸ hs.framed, ?_, ?_, ?_⟩
    · simpa [Ledger.note] using ht'.2
    · simp [Ledger.note]
    · simp [Ledger.note, Output.bytes?, hc, hs.written, hlength, hencode]
  | rxDone ht => exact hs.keep ht.carCommand ht.requested (by simp) (by simp)
  | timer1Fired htimer ht => exact hs.keep ht.carCommand ht.requested (by simp) (by simp)
  | recvTask _ _ _ _ hrequested hcarCommand _ _ =>
    exact hs.keep hcarCommand hrequested (by simp [Ledger.note]) (by simp [Output.bytes?])

/-- While nothing comes between a command and its grant, the byte strings on the
UART are the encodings of the granted commands, in the order in which they were
accepted and once each. -/
theorem frame_integrity {s : State × List Output}
    (h : machine.system.Reachable Undisturbed s) :
    written s.2 = (ledger s.2).granted.map Command.encode := by
  have hfaithful : Faithful s := by
    apply Machine.invariant (P := Faithful) h faithful_init
    intro s e t out hs hallowed hrun
    exact faithful_effect (step_effect hrun) hs hallowed
  exact hfaithful.written

/-- A command refused in between does no harm if it is as long as the one that waits. -/
theorem frame_integrity_harmless :
    ∃ s, machine.system.Reachable Undisturbed s ∧ (ledger s.2).granted = [.angle 2800] ∧
      written s.2 = [[1, 2, 1, 10, 240, 255, 255]] := by
  have hinit : machine.system.Reachable Undisturbed _ := .init
  have hstart := hinit.step (e := Event.start) trivial rfl
  have hangle := hstart.step (e := Event.command (.angle 2800) []) (fun h => nomatch h) rfl
  have hpause := hangle.step (e := Event.command .pause []) (fun _ => rfl) rfl
  have hgrant := hpause.step (e := Event.granted []) rfl rfl
  exact ⟨_, hgrant, by decide, (frame_integrity hgrant).trans (by decide)⟩

/-- A query that is refused cuts the waiting drive command down to four bytes. -/
theorem refused_query_truncates :
    ∃ s, machine.system.Reachable System.anyStep s ∧ (ledger s.2).granted = [.angle 2800] ∧
      written s.2 = [[1, 2, 1, 10]] ∧
      written s.2 ≠ (ledger s.2).granted.map Command.encode := by
  have hinit : machine.system.Reachable System.anyStep _ := .init
  have hstart := hinit.step (e := Event.start) trivial rfl
  have hangle := hstart.step (e := Event.command (.angle 2800) []) trivial rfl
  have hquery := hangle.step (e := Event.command (.quiryReader 100) []) trivial rfl
  have hgrant := hquery.step (e := Event.granted []) trivial rfl
  exact ⟨_, hgrant, by decide, by decide, by decide⟩

end WsnContest.CarP
