import TwinLink.Proofs.Manager.Disconnect
import TwinLink.Proofs.Manager.Settling
import TwinLink.Proofs.Session.Lines

/-! The loop of a session. Whatever the links do between two lines, nothing of it is left to be
done when a line is taken, so a session answers its lines one after another until one quits. Main
statement: it does so for every text, hands on exactly the commands of its lines and leaves both
channels disconnected. -/

namespace TwinLink.Session

open World

variable {cs : List Command}

/-- What is asked for by a line, or why it is no input. -/
abbrev Read := Except Console.Fault Console.Input

/-- What is printed for lines that come behind `n` commands. Behind a line that quits nothing is. -/
inductive Answered : Nat → List Read → List Output → Prop where
  | nothing (n : Nat) : Answered n [] []
  | quit (n : Nat) (inputs : List Read) : Answered n (.ok .quit :: inputs) []
  | send {n : Nat} {inputs : List Read} {out : List Output} (c : Command)
      (h : Answered (n + 1) inputs out) : Answered n (.ok (.send c) :: inputs) out
  | stats {n : Nat} {inputs : List Read} {out : List Output} {s : Stats}
      (hs : s.commandsSent + s.commandsDropped = n) (h : Answered n inputs out) :
      Answered n (.ok .stats :: inputs) (.stats s :: out)
  | help {n : Nat} {inputs : List Read} {out : List Output} (h : Answered n inputs out) :
      Answered n (.ok .help :: inputs) (.help :: out)
  | empty {n : Nat} {inputs : List Read} {out : List Output} (h : Answered n inputs out) :
      Answered n (.ok .empty :: inputs) out
  | fault {n : Nat} {inputs : List Read} {out : List Output} (f : Console.Fault)
      (h : Answered n inputs out) : Answered n (.error f :: inputs) (.fault f :: out)

/-- The commands of lines up to the first that quits. -/
def commands : List Read → List Command
  | [] => []
  | .ok .quit :: _ => []
  | .ok (.send c) :: inputs => c :: commands inputs
  | _ :: inputs => commands inputs

/-- The turns in which an input is taken, line by line. -/
def turns (before : Nat → List Label) (input : List UInt8) : List Turn :=
  (lines input).zipIdx.map fun (line, i) => ⟨before i, readLine line⟩

/-- A session that has come to its end, for lines that were read so. -/
structure Completed (inputs : List Read) (s : Session) : Prop where
  ending : s.ending = some .done
  printed : ∃ out, s.printed = .help :: out ∧ Answered 0 inputs out
  commands : Manager.concluded s.system.trace = commands inputs
  idle : s.system.agenda = []
  closed : ∀ k, (s.system.socket k).state = .closed ∧ (s.system.socket k).driver = none
  disconnected : ∀ k, s.system.state.hub.isConnected k = false

/-- A line that asks for something, or an empty one in its place. -/
def Turn.hushed (t : Turn) : Turn :=
  match t.line.map Console.parse with
  | .ok (.error _) => { t with line := .ok "" }
  | _ => t

def Output.isFault : Output → Bool
  | .fault _ => true
  | _ => false

/-- A session without what it has printed about lines that ask for nothing. -/
def hushed (s : Session) : Session := { s with printed := s.printed.filter (!·.isFault) }

/-! ### One turn -/

theorem silent_client : Manager.Silent client := fun _ _ _ _ => rfl

/-- A session that waits for a line, after the commands `cs`. -/
structure Waiting (cs : List Command) (s : Session) : Prop where
  attending : Manager.Attending cs s.system
  idle : s.system.agenda = []
  ending : s.ending = none

/-- A session that has ended, after the commands `cs`. -/
structure Over (cs : List Command) (s : Session) : Prop where
  attending : Manager.Attending cs s.system
  idle : s.system.agenda = []
  ending : s.ending = some .done
  torn : ∀ k, Manager.Torn (s.system.socket k)
  disconnected : ∀ k, s.system.state.hub.isConnected k = false

section Turn

variable {cs : List Command} {s : Session}

theorem Waiting.elapse (h : Waiting cs s) (before : List Label) :
    Waiting cs { s with system := s.system.elapse before } := by
  have hcalls : ∀ l ∈ before.filter (!·.isCall), l.isCall = false := fun l hl => by
    simpa using (List.mem_filter.mp hl).2
  obtain ⟨hrun, hbill⟩ := Manager.run_attending silent_client hcalls h.attending
    (by rw [h.idle]; exact Nat.zero_le 2)
  obtain ⟨hdone, hidle⟩ := Manager.finish_attending silent_client hrun
    (Nat.le_trans hbill (by decide : 2 ≤ effort))
  exact ⟨hdone, hidle, h.ending⟩

theorem Waiting.request (h : Waiting cs s) {r : Request}
    (hr : Manager.isRegistration r = false) :
    Waiting (cs ++ Manager.handing r) (s.request r) := by
  obtain ⟨hdone, hidle⟩ := Manager.ask_attending silent_client h.attending h.idle hr
    (by decide : 8 ≤ effort)
  exact ⟨hdone, hidle, h.ending⟩

theorem Waiting.finish (h : Waiting cs s) : Over cs s.finish := by
  obtain ⟨hdone, hidle⟩ := Manager.ask_attending (r := .disconnect) silent_client h.attending h.idle
    rfl (by decide : 8 ≤ effort)
  rw [show Manager.handing (.disconnect : Request) = [] from rfl, List.append_nil] at hdone
  have htorn := Manager.ask_disconnect silent_client h.attending h.idle (by decide : 8 ≤ effort)
  exact ⟨hdone, hidle, rfl, fun k => (htorn k).1, fun k => (htorn k).2⟩

theorem Waiting.print (h : Waiting cs s) (o : Output) : Waiting cs (s.print o) :=
  ⟨h.attending, h.idle, h.ending⟩

/-- The counters account for every command. -/
theorem Waiting.stats (h : Waiting cs s) :
    s.stats.commandsSent + s.stats.commandsDropped = cs.length := by
  have hhanded := h.attending.handed
  rw [h.idle, List.filterMap_nil, List.append_nil] at hhanded
  rw [← hhanded]
  exact h.attending.counted

/-- What comes of a registration that nobody answers. -/
theorem request_subscribe {w : System} (ha : w.agenda = []) :
    w.request (.subscribe () fun _ => none) =
      { w with
        state := ⟨w.state.hub.subscribe (), ()⟩
        trace := w.trace ++ [(w.now, .note (.registered w.state.hub.registrations none ()))] } := by
  obtain ⟨now, live, command, state, agenda, running, trace⟩ := w
  subst ha
  rw [← List.append_nil (_ ++ [_])]
  rfl

theorem request_watch {w : System} (ha : w.agenda = []) (k : ChannelKind) :
    w.request (.watch k () fun _ => none) =
      { w with
        state := ⟨w.state.hub.watch k (), ()⟩
        trace := w.trace ++ [(w.now, .note (.registered w.state.hub.registrations (some k) ()))] ++
          [(w.now, .note (.called none w.state.hub.registrations ()
              (.status ⟨k, w.state.hub.isConnected k⟩))),
            (w.now, .note (.own (record (.status ⟨k, w.state.hub.isConnected k⟩))))] } := by
  obtain ⟨now, live, command, state, agenda, running, trace⟩ := w
  subst ha
  rw [← List.append_nil (_ ++ [_, _])]
  rfl

/-- The listeners of a session are registered. -/
def listening (w : System) : System :=
  ((w.request (.subscribe () fun _ => none)).request (.watch .live () fun _ => none)).request
    (.watch .command () fun _ => none)

theorem listening_eq {w : System} (ha : w.agenda = []) : ∃ es, Manager.concluded es = [] ∧
    listening w =
      { w with
        state := ⟨((w.state.hub.subscribe ()).watch .live ()).watch .command (), ()⟩
        trace := w.trace ++ es } := by
  rw [listening, request_subscribe ha, request_watch, request_watch]
  · simp only [List.append_assoc]
    exact ⟨_, rfl, rfl⟩
  · exact ha
  · rw [request_watch] <;> exact ha

theorem waiting_begin (c : Config) (live command : List (Reply Socket.Answer)) :
    Waiting [] (begin c live command) := by
  have ha : (Manager.ofConfig c live command () : System).agenda = [] :=
    Manager.agenda_ofConfig c live command ()
  have hs : (Manager.ofConfig c live command () : System).state = ⟨.empty, ()⟩ :=
    Manager.state_ofConfig c live command ()
  have hy : Manager.Synced (Manager.ofConfig c live command () : System) :=
    (Manager.steady_ofConfig c live command ()).synced
  have hc : Manager.concluded (Manager.ofConfig c live command () : System).trace = [] := by
    unfold Manager.ofConfig
    split <;> rfl
  have hbegin : begin c live command =
      (Session.request .connect ⟨listening (Manager.ofConfig c live command ()), [], none⟩).print
        .help := rfl
  rw [hbegin]
  generalize Manager.ofConfig c live command () = w at ha hs hy hc
  obtain ⟨es, hes, hw⟩ := listening_eq ha
  have htrace : Manager.concluded (w.trace ++ es) = [] := by
    rw [Manager.concluded, List.filterMap_append]
    exact List.append_eq_nil_iff.mpr ⟨hc, hes⟩
  have hattending : Manager.Attending [] (listening w) := by
    rw [hw, hs, ha]
    exact
      { shaped := .calm (by simp)
        synced := fun k => by
          have hk := hy k
          rw [ha, hs] at hk
          cases k <;> exact hk
        snapshots := Nat.le_refl 1
        listeners := fun k => by cases k <;> exact Nat.le_refl 1
        registered := fun r hr => by cases hr
        handed := by rw [htrace]; rfl
        counted := by rw [htrace]; rfl }
  have hwaiting : Waiting [] ⟨listening w, [], none⟩ := ⟨hattending, by rw [hw]; exact ha, rfl⟩
  exact (hwaiting.request (r := .connect) rfl).print .help

/-! ### All turns -/

theorem turn_of_ended (h : s.ending.isSome = true) (t : Turn) : s.turn t = s := by
  rw [turn, if_pos h]

theorem run_of_ended (h : s.ending.isSome = true) (ts : List Turn) (last : List Label) :
    s.run ts last = s := by
  induction ts with
  | nil => rw [run, List.foldl_nil, conclude, if_pos h]
  | cons t ts ih =>
    rw [run, List.foldl_cons, turn_of_ended h]
    exact ih

theorem run_cons (t : Turn) (ts : List Turn) (last : List Label) :
    s.run (t :: ts) last = (s.turn t).run ts last := rfl

/-- What a session prints behind what it has printed, and how it ends. -/
theorem Waiting.run (h : Waiting cs s) (texts : List String) {ts : List Turn}
    (hts : ts.map Turn.line = texts.map .ok) (last : List Label) :
    Over (cs ++ commands (texts.map Console.parse)) (s.run ts last) ∧
      ∃ out, (s.run ts last).printed = s.printed ++ out ∧
        Answered cs.length (texts.map Console.parse) out := by
  induction texts generalizing cs s ts with
  | nil =>
    obtain rfl := List.map_eq_nil_iff.mp hts
    have hrun : s.run [] last = { s with system := s.system.elapse last }.finish := by
      rw [Session.run, List.foldl_nil, conclude, h.ending]
      rfl
    rw [hrun, List.map_nil, commands, List.append_nil]
    exact ⟨(h.elapse last).finish, [], (List.append_nil _).symm, .nothing _⟩
  | cons text texts ih =>
    obtain ⟨t, ts, rfl⟩ := List.exists_cons_of_ne_nil (l := ts) (by rintro rfl; cases hts)
    obtain ⟨hline, hts⟩ := List.cons.inj hts
    have helapsed := h.elapse t.before
    have hturn : s.turn t =
        Session.obey (Console.parse text) { s with system := s.system.elapse t.before } := by
      rw [turn, h.ending]
      simp only [Option.isSome_none, Bool.false_eq_true, if_false, hline]
    have hprinted : ({ s with system := s.system.elapse t.before } : Session).printed = s.printed :=
      rfl
    rw [run_cons, hturn, List.map_cons, ← hprinted]
    generalize Console.parse text = input
    generalize ({ s with system := s.system.elapse t.before } : Session) = s' at helapsed
    -- a line that is answered by `o` at once
    have hprint {o : Output} {input : Read} (hc : commands (input :: texts.map Console.parse) =
        commands (texts.map Console.parse))
        (ha : ∀ out, Answered cs.length (texts.map Console.parse) out →
          Answered cs.length (input :: texts.map Console.parse) (o :: out)) :
        Over (cs ++ commands (input :: texts.map Console.parse)) ((s'.print o).run ts last) ∧
          ∃ out, ((s'.print o).run ts last).printed = s'.printed ++ out ∧
            Answered cs.length (input :: texts.map Console.parse) out := by
      obtain ⟨hover, out, hout, hanswered⟩ := ih (helapsed.print o) hts
      rw [hc]
      exact ⟨hover, o :: out, by rw [hout, Session.print, List.append_assoc]; rfl, ha out hanswered⟩
    cases input with
    | error f => exact hprint rfl fun _ => .fault f
    | ok input =>
      cases input with
      | stats => exact hprint rfl fun _ => .stats helapsed.stats
      | help => exact hprint rfl fun _ => .help
      | empty =>
        obtain ⟨hover, out, hout, hanswered⟩ := ih helapsed hts
        exact ⟨hover, out, hout, .empty hanswered⟩
      | send c =>
        obtain ⟨hover, out, hout, hanswered⟩ := ih (helapsed.request (r := .send c) rfl) hts
        rw [show Manager.handing (.send c : Request) = [c] from rfl] at hover hanswered
        rw [List.append_assoc] at hover
        rw [List.length_append] at hanswered
        exact ⟨hover, out, hout, .send c hanswered⟩
      | quit =>
        have hover := helapsed.finish
        rw [show Session.obey (.ok .quit) s' = s'.finish from rfl,
          run_of_ended (by rw [hover.ending]; rfl), commands, List.append_nil]
        exact ⟨hover, [], (List.append_nil _).symm, .quit _ _⟩

/-! ### Lines that ask for nothing -/

theorem hushed_print (s : Session) {o : Output} (ho : o.isFault = false) :
    (s.print o).hushed = s.hushed.print o := by
  simp [hushed, Session.print, ho]

theorem hushed_fault (s : Session) (f : Console.Fault) :
    (s.print (.fault f)).hushed = s.hushed := by
  simp [hushed, Session.print, Output.isFault]

theorem parse_empty : Console.parse "" = .ok .empty := by
  rfl

theorem obey_hushed (s : Session) (input : Console.Input) :
    s.hushed.obey (.ok input) = (s.obey (.ok input)).hushed := by
  cases input with
  | stats => exact (hushed_print s rfl).symm
  | help => exact (hushed_print s rfl).symm
  | _ => rfl

theorem turn_hushed (s : Session) (t : Turn) : s.hushed.turn t.hushed = (s.turn t).hushed := by
  obtain ⟨before, line⟩ := t
  by_cases he : s.ending.isSome = true
  · rw [turn_of_ended he, turn_of_ended (s := s.hushed) he]
  · rw [turn, turn, if_neg he, if_neg (show ¬ s.hushed.ending.isSome = true from he)]
    cases line with
    | error fault => rfl
    | ok line =>
      cases hp : Console.parse line with
      | ok input =>
        have ht : Turn.hushed ⟨before, .ok line⟩ = ⟨before, .ok line⟩ := by
          simp [Turn.hushed, Except.map, hp]
        rw [ht]
        simp only [hp]
        exact obey_hushed { s with system := s.system.elapse before } input
      | error f =>
        have ht : Turn.hushed ⟨before, .ok line⟩ = ⟨before, .ok ""⟩ := by
          simp [Turn.hushed, Except.map, hp]
        rw [ht]
        simp only [hp, parse_empty]
        exact (hushed_fault { s with system := s.system.elapse before } f).symm

theorem conclude_hushed (s : Session) (last : List Label) :
    s.hushed.conclude last = (s.conclude last).hushed := by
  rw [conclude, conclude, show s.hushed.ending = s.ending from rfl]
  split <;> rfl

/-- An empty line in the place of one that asks for nothing makes no difference but for the fault
that is printed. -/
theorem run_hushed (s : Session) (ts : List Turn) (last : List Label) :
    s.hushed.run (ts.map Turn.hushed) last = (s.run ts last).hushed := by
  induction ts generalizing s with
  | nil => exact conclude_hushed s last
  | cons t ts ih => rw [List.map_cons, run_cons, run_cons, turn_hushed, ih]

/-- Nothing is done about what comes behind a line that quits. -/
theorem run_of_quit (p q : List Turn) {t : Turn} (last : List Label)
    (ht : t.line.map Console.parse = .ok (.ok .quit)) :
    s.run (p ++ t :: q) last = s.run (p ++ [t]) [] := by
  have hended (s : Session) : (s.turn t).ending.isSome = true := by
    rw [turn]
    split
    · assumption
    · obtain ⟨before, line⟩ := t
      cases line with
      | error fault => cases ht
      | ok line =>
        have hp : Console.parse line = .ok .quit := Except.ok.inj ht
        simp only [hp]
        rfl
  induction p generalizing s with
  | nil =>
    rw [List.nil_append, List.nil_append, run_cons, run_cons, run_of_ended (hended s),
      run_of_ended (hended s)]
  | cons u p ih => rw [List.cons_append, List.cons_append, run_cons, run_cons, ih]

end Turn

/-- The turns in which a text is taken. -/
theorem turns_text (before : Nat → List Label) (text : String) :
    turns before text.toUTF8.data.toList =
      (textLines text.toList).zipIdx.map fun (line, i) => ⟨before i, .ok line⟩ := by
  have hlines := lines_encodeChars text.toList
  rw [← Text.Utf8.data_toUTF8] at hlines
  have hturns : turns before text.toUTF8.data.toList =
      ((lines text.toUTF8.data.toList).map readLine).zipIdx.map
        fun (line, i) => ⟨before i, line⟩ := by
    rw [List.zipIdx_map, List.map_map]
    rfl
  rw [hturns, hlines, List.zipIdx_map, List.map_map]
  rfl

theorem map_line_turns (before : Nat → List Label) (text : String) :
    (turns before text.toUTF8.data.toList).map Turn.line = (textLines text.toList).map .ok := by
  have hfst := List.zipIdx_map_fst 0 (textLines text.toList)
  rw [turns_text, List.map_map]
  conv => rhs; rw [← hfst, List.map_map]
  rfl

/-- A session answers the lines of any text one after another, up to the first that quits, and ends
with both channels disconnected, whatever goes on between the lines; a line that asks for nothing
counts for nothing, and none is taken behind one that quits. -/
theorem run_completed (c : Config) (live command : List (Reply Socket.Answer)) (text : String)
    (before : Nat → List Label) (last : List Label) :
    let start := begin c live command
    let ts := turns before text.toUTF8.data.toList
    Completed ((textLines text.toList).map Console.parse) (start.run ts last) ∧
      start.run (ts.map Turn.hushed) last = (start.run ts last).hushed ∧
      ∀ p t q, ts = p ++ t :: q → t.line.map Console.parse = .ok (.ok .quit) →
        start.run ts last = start.run (p ++ [t]) [] := by
  intro start ts
  obtain ⟨hover, out, hout, hanswered⟩ :=
    (waiting_begin c live command).run _ (map_line_turns before text) last
  refine ⟨?_, ?_, fun p t q hts ht => ?_⟩
  · have hhanded := hover.attending.handed
    rw [hover.idle, List.filterMap_nil, List.append_nil, List.nil_append] at hhanded
    exact
      { ending := hover.ending
        printed := ⟨out, hout, hanswered⟩
        commands := hhanded
        idle := hover.idle
        closed := fun k => ⟨(hover.torn k).state, (hover.torn k).driver⟩
        disconnected := hover.disconnected }
  · exact run_hushed start ts last
  · rw [hts]
    exact run_of_quit p q last ht

theorem run_completed_pause :
    let start := begin Manager.plainConfig [] []
    let ts := turns (fun _ => []) "pause\r\nquit\nstep".toUTF8.data.toList
    Completed [.ok (.send .pause), .ok .quit, .ok (.send .step)] (start.run ts []) ∧
      start.run ts [] = start.run [⟨[], .ok "pause"⟩, ⟨[], .ok "quit"⟩] [] := by
  have hlines : textLines "pause\r\nquit\nstep".toList = ["pause", "quit", "step"] := by decide
  have hinputs : ["pause", "quit", "step"].map Console.parse =
      [.ok (.send .pause), .ok .quit, .ok (.send .step)] := by rfl
  have hts : turns (fun _ => []) "pause\r\nquit\nstep".toUTF8.data.toList =
      [⟨[], .ok "pause"⟩] ++ ⟨[], .ok "quit"⟩ :: [⟨[], .ok "step"⟩] := by
    rw [turns_text, hlines]
    rfl
  have hquit : Except.map Console.parse (.ok (ε := Text.Utf8.Fault) "quit") = .ok (.ok .quit) := rfl
  obtain ⟨hcompleted, -, hquits⟩ :=
    run_completed Manager.plainConfig [] [] "pause\r\nquit\nstep" (fun _ => []) []
  rw [hlines, hinputs] at hcompleted
  have hrest := hquits _ _ _ hts hquit
  exact ⟨hcompleted, hrest⟩

end TwinLink.Session
