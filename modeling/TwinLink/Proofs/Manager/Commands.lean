import TwinLink.Proofs.Manager.Run
import TwinLink.Proofs.Socket.Queue

/-! Commands go out once, in order and on the link that took them. Main statement: what has
gone out on a link is, text by text, what was accepted for it, as far as the link got; the
counters of the command channel count the sends that succeeded and those that did not. -/

namespace TwinLink

namespace Socket

/-- A text is accepted for a link or goes out on one. -/
def Happening.isTraffic : Happening → Bool
  | queued .. | write .. => true
  | _ => false

theorem acceptedOn_of_not_traffic {link : Nat} {seen : List Happening}
    (h : ∀ e ∈ seen, e.isTraffic = false) : acceptedOn link seen = [] := by
  rw [acceptedOn, List.filterMap_eq_nil_iff]
  intro e he
  have := h e he
  cases e <;> simp_all [Happening.isTraffic]

theorem writtenOn_of_not_traffic {link : Nat} {seen : List Happening}
    (h : ∀ e ∈ seen, e.isTraffic = false) : writtenOn link seen = [] := by
  rw [writtenOn, List.filterMap_eq_nil_iff]
  intro e he
  have := h e he
  cases e <;> simp_all [Happening.isTraffic]

/-- A step of a driver hands over the text that waits first, or none at all. -/
theorem Stepped.traffic {now i : Nat} {s : Socket} {m : Move} (hs : Stepped now i s m) :
    (∃ link text fate rest, m.seen = [.write link text fate] ∧ m.callback = none ∧
        s.requests link = .text text :: rest) ∨ ∀ e ∈ m.seen, e.isTraffic = false := by
  cases hs
  case write link l text rest _ hl hr =>
    exact .inl ⟨link, text, _, rest, rfl, rfl, (requests_eq hl).trans hr⟩
  case readLast hlogs =>
    right
    simpa [leave, Happening.isTraffic, or_imp, forall_and] using hlogs.eq_false fun _ => rfl
  case unwritten hlogs =>
    right
    simpa [leave, Happening.isTraffic, or_imp, forall_and] using hlogs.eq_false fun _ => rfl
  case closed hlogs =>
    right
    simpa [Happening.isTraffic] using hlogs.eq_false fun _ => rfl
  all_goals
    right
    simp [Happening.isTraffic, Socket.attempt, Socket.rest, Socket.release, leave, Move.silent,
      logInfo]

theorem connect_not_traffic (s : Socket) : ∀ e ∈ s.connect.seen, e.isTraffic = false := by
  unfold Socket.connect
  split <;> simp [Move.silent]

theorem teardown_not_traffic (now : Nat) (s : Socket) :
    ∀ e ∈ (s.teardown now).seen, e.isTraffic = false := by
  simp only [Socket.teardown]
  split
  · simp
  · simp [logInfo, Happening.isTraffic]

theorem discard_not_traffic (s : Socket) (i : Nat) :
    ∀ e ∈ (s.discard i).seen, e.isTraffic = false := by
  unfold Socket.discard
  split <;> simp [Move.silent, Happening.isTraffic]

end Socket

namespace Manager

open Socket World

variable {κ γ τ ν : Type} {C : Client κ γ τ ν}

/-- What has happened on the socket of the command channel. -/
def commandSeen (past : List (System κ γ τ ν × Entry (Note ν κ))) : List Happening :=
  past.filterMap fun (_, e) => e.happening? .command

/-- The commands whose sending succeeded while a link took what is sent. -/
def accepted (link : Nat) (past : List (System κ γ τ ν × Entry (Note ν κ))) : List Command :=
  past.filterMap fun
    | (v, .note (.finished c (.ok _))) => if v.command.sender = some link then some c else none
    | _ => none

/-- The texts that were handed to a link of the command channel. -/
def written (link : Nat) (past : List (System κ γ τ ν × Entry (Note ν κ))) : List String :=
  writtenOn link (commandSeen past)

/-- The sends that have come to an end, with their results. -/
def finished (past : List (System κ γ τ ν × Entry (Note ν κ))) :
    List (Command × Except LinkError Unit) :=
  past.filterMap fun
    | (_, .note (.finished c result)) => some (c, result)
    | _ => none

/-- The commands that were to be sent. -/
def asked (tasks : List (Task (Item κ γ))) : List Command :=
  tasks.filterMap fun
    | .work (.request (.send c)) => some c
    | _ => none

/-- The send that has not come to an end, if there is one. -/
def sending (w : System κ γ τ ν) : List Command :=
  match w.agenda with
  | .send _ _ reply :: _ =>
    match reply (.ok ()) with
    | .sent c _ => [c]
    | _ => []
  | .work (.sent c _) :: _ => [c]
  | _ => []

/-- The text of a command that a link has just accepted. -/
def inHand (link : Nat) (w : System κ γ τ ν) : List (Except LinkError String) :=
  match w.agenda with
  | .work (.sent c (.ok _)) :: _ => if w.command.sender = some link then [c.encode] else []
  | _ => []

def isOk (p : Command × Except LinkError Unit) : Bool := p.2.toBool

/-- A text that goes out on a link is that of the command accepted for the link whose turn it
is. -/
def Matched (past : List (System κ γ τ ν × Entry (Note ν κ)))
    (x : System κ γ τ ν × Entry (Note ν κ)) : Prop :=
  ∀ link text fate, x.2 = .socket .command (.write link text fate) →
    ∃ c, (accepted link past)[(written link past).length]? = some c ∧ c.encode = .ok text

/-- What the history of a run tells about commands, given the tasks done. -/
structure Ledger (tasks : List (Task (Item κ γ)))
    (past : List (System κ γ τ ν × Entry (Note ν κ))) (w : System κ γ τ ν) : Prop where
  account : Accounted (commandSeen past) w.command
  balance : ∀ link, (acceptedOn link (commandSeen past)).map Except.ok =
    (accepted link past).map Command.encode ++ inHand link w
  ordered : ∀ link, ∃ waiting : List String,
    (accepted link past).map Command.encode = (written link past ++ waiting).map Except.ok
  matched : Each Matched past
  asked : asked tasks = (finished past).map Prod.fst ++ sending w
  sent : w.state.hub.tally.sent = (finished past).countP isOk
  dropped : w.state.hub.tally.dropped = (finished past).countP fun p => !isOk p

section Append

variable (past : List (System κ γ τ ν × Entry (Note ν κ))) (w : System κ γ τ ν)
  (es : List (Entry (Note ν κ))) (link : Nat)

theorem commandSeen_append : commandSeen (past ++ es.map (w, ·)) =
    commandSeen past ++ es.filterMap (Entry.happening? .command) := by
  rw [commandSeen, List.filterMap_append, List.filterMap_map]
  rfl

theorem written_append : written link (past ++ es.map (w, ·)) =
    written link past ++ writtenOn link (es.filterMap (Entry.happening? .command)) := by
  rw [written, commandSeen_append, writtenOn_append]
  rfl

theorem accepted_append (m : List (System κ γ τ ν × Entry (Note ν κ))) :
    accepted link (past ++ m) = accepted link past ++ accepted link m := List.filterMap_append

theorem finished_append (m : List (System κ γ τ ν × Entry (Note ν κ))) :
    finished (past ++ m) = finished past ++ finished m := List.filterMap_append

theorem asked_append (p q : List (Task (Item κ γ))) : asked (p ++ q) = asked p ++ asked q :=
  List.filterMap_append

end Append

/-- An entry that concerns no command. -/
def isNeutral : Entry (Note ν κ) → Bool
  | .note (.finished ..) => false
  | .socket .command h => !h.isTraffic
  | _ => true

section Step

variable {tasks : List (Task (Item κ γ))} {past : List (System κ γ τ ν × Entry (Note ν κ))}
  {w w' : System κ γ τ ν} {t : Turn κ γ} {done : Option (Task (Item κ γ))}
  {es : List (Entry (Note ν κ))}

theorem not_traffic_of_neutral (h : ∀ e ∈ es, isNeutral e = true) :
    ∀ e ∈ es.filterMap (Entry.happening? .command), e.isTraffic = false := by
  intro e he
  obtain ⟨entry, hentry, hs⟩ := List.mem_filterMap.mp he
  have := h entry hentry
  cases entry with
  | socket k x => cases k <;> simp_all [Entry.happening?, isNeutral]
  | _ => simp [Entry.happening?] at hs

theorem finished_of_neutral (h : ∀ e ∈ es, isNeutral e = true) :
    finished (es.map (w, ·)) = [] := by
  rw [finished, List.filterMap_eq_nil_iff]
  intro x hx
  obtain ⟨e, he, rfl⟩ := List.mem_map.mp hx
  have := h e he
  cases e with
  | note n => cases n <;> simp_all [isNeutral]
  | _ => rfl

theorem accepted_of_finished {link : Nat} {m : List (System κ γ τ ν × Entry (Note ν κ))}
    (h : finished m = []) : accepted link m = [] := by
  rw [finished, List.filterMap_eq_nil_iff] at h
  rw [accepted, List.filterMap_eq_nil_iff]
  intro x hx
  have := h x hx
  obtain ⟨v, _ | _ | n⟩ := x
  · rfl
  · rfl
  · cases n <;> simp_all

theorem matched_of_neutral {e : Entry (Note ν κ)} (h : isNeutral e = true)
    (before : List (System κ γ τ ν × Entry (Note ν κ))) : Matched before (w, e) := by
  intro link text fate he
  have he : e = .socket .command (.write link text fate) := he
  simp [he, isNeutral, Happening.isTraffic] at h

/-- What concerns no command keeps the ledger. -/
theorem Ledger.neutral (h : Ledger tasks past w)
    (hacc : Accounted (commandSeen (past ++ es.map (w, ·))) w'.command)
    (he : ∀ e ∈ es, isNeutral e = true) (hin : ∀ link, inHand link w' = inHand link w)
    (hs : sending w' = sending w ++ Manager.asked done.toList)
    (ht : w'.state.hub.tally = w.state.hub.tally) :
    Ledger (tasks ++ done.toList) (past ++ es.map (w, ·)) w' := by
  have hf := finished_of_neutral (w := w) he
  have hn := not_traffic_of_neutral he
  have hfin : finished (past ++ es.map (w, ·)) = finished past := by
    rw [finished_append, hf, List.append_nil]
  have hac (link : Nat) : accepted link (past ++ es.map (w, ·)) = accepted link past := by
    rw [accepted_append, accepted_of_finished hf, List.append_nil]
  refine
    { account := hacc
      balance := fun link => ?_
      ordered := fun link => ?_
      matched := each_append_of_forall h.matched ?_
      asked := ?_
      sent := by rw [ht, hfin]; exact h.sent
      dropped := by rw [ht, hfin]; exact h.dropped }
  · rw [commandSeen_append, acceptedOn_append, acceptedOn_of_not_traffic hn, List.append_nil, hac,
      hin]
    exact h.balance link
  · rw [hac, written_append, writtenOn_of_not_traffic hn, List.append_nil]
    exact h.ordered link
  · intro x hx before
    obtain ⟨e, hmem, rfl⟩ := List.mem_map.mp hx
    exact matched_of_neutral (he e hmem) before
  · rw [hfin, asked_append, h.asked, hs, List.append_assoc]

/-- A driver hands a text to a link, which is the one whose turn it is. -/
theorem Ledger.write (h : Ledger tasks past w) {link : Nat} {text : String} {fate : Fate}
    {rest : List TwinLink.Request} (hq : w.command.requests link = .text text :: rest)
    (hacc : Accounted (commandSeen (past ++ [(w, .socket .command (.write link text fate))]))
      w'.command)
    (hin : ∀ link, inHand link w = []) (hin' : ∀ link, inHand link w' = [])
    (hs : sending w = []) (hs' : sending w' = [])
    (ht : w'.state.hub.tally = w.state.hub.tally) :
    Ledger tasks (past ++ [(w, .socket .command (.write link text fate))]) w' := by
  have hseen : commandSeen (past ++ [(w, .socket .command (.write link text fate))]) =
      commandSeen past ++ [.write link text fate] := List.filterMap_append
  have hfin : finished (past ++ [(w, .socket .command (.write link text fate))]) =
      finished past := by
    rw [finished_append]
    exact List.append_nil _
  have hac (k : Nat) : accepted k (past ++ [(w, .socket .command (.write link text fate))]) =
      accepted k past := by
    rw [accepted_append]
    exact List.append_nil _
  have hbal (k : Nat) : (acceptedOn k (commandSeen past)).map Except.ok =
      (accepted k past).map Command.encode := by
    rw [h.balance, hin, List.append_nil]
  refine
    { account := hacc
      balance := fun k => ?_
      ordered := fun k => ?_
      matched := each_append_one h.matched ?_
      asked := by rw [hfin, hs', ← hs]; exact h.asked
      sent := by rw [ht, hfin]; exact h.sent
      dropped := by rw [ht, hfin]; exact h.dropped }
  · rw [hseen, acceptedOn_append, acceptedOn_write, List.append_nil, hac, hin', List.append_nil]
    exact hbal k
  · have hb := hacc.balance k
    rw [hseen, acceptedOn_append, acceptedOn_write, List.append_nil] at hb
    exact ⟨_, by rw [hac, ← hbal, hb, written, hseen]⟩
  · rintro link' text' fate' ⟨⟩
    -- the text is the first behind those that have gone out
    have hb := h.account.balance link
    rw [hq] at hb
    have hget : ((accepted link past).map Command.encode)[(written link past).length]? =
        some (.ok text) := by
      rw [← hbal, hb, written]
      simp [TwinLink.Request.text?]
    rw [List.getElem?_map, Option.map_eq_some_iff] at hget
    exact hget

/-- A link accepts the text of a command. -/
theorem Ledger.send (h : Ledger tasks past w) {link : Nat} {c : Command} {text : String}
    (he : c.encode = .ok text) (hlink : w'.command.sender = some link)
    (hacc : Accounted (commandSeen (past ++ [(w, .socket .command (.queued link text))]))
      w'.command)
    (hin : ∀ link, inHand link w = [])
    {tail : List (Task (Item κ γ))} (hw' : w'.agenda = .work (.sent c (.ok ())) :: tail)
    (hs : sending w = [c]) (hd : Manager.asked done.toList = [])
    (ht : w'.state.hub.tally = w.state.hub.tally) :
    Ledger (tasks ++ done.toList) (past ++ [(w, .socket .command (.queued link text))]) w' := by
  have hseen : commandSeen (past ++ [(w, .socket .command (.queued link text))]) =
      commandSeen past ++ [.queued link text] := List.filterMap_append
  have hfin : finished (past ++ [(w, .socket .command (.queued link text))]) =
      finished past := by
    rw [finished_append]
    exact List.append_nil _
  have hac (k : Nat) : accepted k (past ++ [(w, .socket .command (.queued link text))]) =
      accepted k past := by
    rw [accepted_append]
    exact List.append_nil _
  refine
    { account := hacc
      balance := fun k => ?_
      ordered := fun k => ?_
      matched := each_append_of_forall h.matched ?_
      asked := ?_
      sent := by rw [ht, hfin]; exact h.sent
      dropped := by rw [ht, hfin]; exact h.dropped }
  · rw [hseen, acceptedOn_append, List.map_append, h.balance, hin, List.append_nil, hac,
      acceptedOn_queued]
    simp only [inHand, hw', hlink, Option.some.injEq, he]
    split <;> rfl
  · rw [hac, written, hseen, writtenOn_append, writtenOn_queued, List.append_nil]
    exact h.ordered k
  · intro x hx before
    rw [List.mem_singleton.mp hx]
    intro link text fate he
    simp at he
  · rw [hfin, asked_append, hd, List.append_nil, h.asked, hs]
    simp [sending, hw']

/-- The result of a send is told and counted. -/
theorem Ledger.conclude (h : Ledger tasks past w) {c : Command} {result : Except LinkError Unit}
    {logs : List (Entry (Note ν κ))} (hes : es = logs ++ [.note (.finished c result)])
    (he : ∀ e ∈ logs, isNeutral e = true)
    (hacc : Accounted (commandSeen (past ++ es.map (w, ·))) w'.command)
    (hin : ∀ link, inHand link w =
      if result.toBool = true ∧ w.command.sender = some link then [c.encode] else [])
    (hin' : ∀ link, inHand link w' = [])
    (hs : sending w ++ Manager.asked done.toList = [c]) (hs' : sending w' = [])
    (ht : w'.state.hub.tally = w.state.hub.tally.count result) :
    Ledger (tasks ++ done.toList) (past ++ es.map (w, ·)) w' := by
  have hfin : finished (past ++ es.map (w, ·)) =
      finished past ++ [(c, result)] := by
    rw [hes, List.map_append, finished_append, finished_append, finished_of_neutral he,
      List.nil_append]
    rfl
  have hnews : es.filterMap (Entry.happening? .command) =
      logs.filterMap (Entry.happening? .command) := by
    rw [hes, List.filterMap_append]
    exact List.append_nil _
  have hn := not_traffic_of_neutral he
  have hac (link : Nat) :
      accepted link (past ++ es.map (w, ·)) =
        accepted link past ++
          if result.toBool = true ∧ w.command.sender = some link then [c] else [] := by
    rw [hes, List.map_append, accepted_append, accepted_append,
      accepted_of_finished (finished_of_neutral he), List.nil_append]
    cases result with
    | error e => simp [accepted, Except.toBool]
    | ok u =>
      by_cases hl : w.command.sender = some link
      · simp [accepted, Except.toBool, hl]
      · simp [accepted, Except.toBool, hl]
  have hbal (link : Nat) :
      (acceptedOn link (commandSeen (past ++ es.map (w, ·)))).map Except.ok =
        (accepted link (past ++ es.map (w, ·))).map Command.encode := by
    rw [commandSeen_append, hnews, acceptedOn_append, acceptedOn_of_not_traffic hn, List.append_nil,
      hac, h.balance, hin, List.map_append]
    split <;> rfl
  refine
    { account := hacc
      balance := fun link => by rw [hin', List.append_nil]; exact hbal link
      ordered := fun link => ⟨_, by rw [← hbal link, hacc.balance link]; rfl⟩
      matched := each_append_of_forall h.matched ?_
      asked := ?_
      sent := ?_
      dropped := ?_ }
  · intro x hx before
    obtain ⟨e, hmem, rfl⟩ := List.mem_map.mp hx
    rw [hes] at hmem
    rcases List.mem_append.mp hmem with hmem | hmem
    · exact matched_of_neutral (he e hmem) before
    · rw [List.mem_singleton.mp hmem]
      intro link text fate hx
      simp at hx
  · rw [hfin, hs', asked_append, h.asked, List.append_assoc, hs]
    simp
  · rw [ht, hfin, List.countP_append, ← h.sent]
    cases result <;> simp [Tally.count, isOk, Except.toBool]
  · rw [ht, hfin, List.countP_append, ← h.dropped]
    cases result <;> simp [Tally.count, isOk, Except.toBool]

/-- A task of a send in progress. -/
def isSending : Task (Item κ γ) → Bool
  | .send .. | .work (.sent ..) => true
  | _ => false

theorem not_sending_of_calm {t : Task (Item κ γ)} (h : isCalm t = true) : isSending t = false := by
  cases t with
  | work item => cases item <;> simp_all [isCalm, isSending]
  | _ => simp_all [isCalm, isSending]

theorem inHand_eq_nil (h : ∀ t, w.agenda.head? = some t → isSending t = false) (link : Nat) :
    inHand link w = [] := by
  unfold inHand
  split
  next c _ _ ha => simp [ha, isSending] at h
  next => rfl

theorem sending_eq_nil (h : ∀ t, w.agenda.head? = some t → isSending t = false) :
    sending w = [] := by
  unfold sending
  split
  next ha => simp [ha, isSending] at h
  next ha => simp [ha, isSending] at h
  next => rfl

theorem head_not_sending {front rest : List (Task (Item κ γ))}
    (hf : ∀ t ∈ front, isSending t = false) (hr : ∀ t ∈ rest, isCalm t = true)
    {t : Task (Item κ γ)} (ht : (front ++ rest).head? = some t) : isSending t = false := by
  have hmem := List.mem_of_head? ht
  rcases List.mem_append.mp hmem with h | h
  · exact hf t h
  · exact not_sending_of_calm (hr t h)

theorem hearing_not_sending (k : ChannelKind) (c : Option Callback) :
    ∀ t ∈ hearing (consumer C) k c, isSending t = false := by
  cases c <;> simp [hearing, consumer, isSending]

theorem neutral_ofMove {k : ChannelKind} {m : Move}
    (h : k = .command → ∀ e ∈ m.seen, e.isTraffic = false) :
    ∀ e ∈ Entry.ofMove (ε := Note ν κ) k m, isNeutral e = true := by
  intro e he
  rcases List.mem_append.mp he with he | he
  · obtain ⟨x, hx, rfl⟩ := List.mem_map.mp he
    cases k
    · rfl
    · simp [isNeutral, h rfl x hx]
  · cases hc : m.callback with
    | none => simp [hc] at he
    | some c =>
      obtain rfl : e = .callback k c := by simpa [hc] using he
      rfl

theorem calls_not_sending (emission : Option Nat) (r : Roster κ) (e : Event) :
    ∀ t ∈ r.entries.map fun l => (Task.work (.call emission l.1 l.2 e) : Task (Item κ γ)),
      isSending t = false := by
  intro t ht
  obtain ⟨l, -, rfl⟩ := List.mem_map.mp ht
  rfl

theorem neutral_of_logs (logs : List Log) :
    ∀ e ∈ logs.map fun l => (Entry.note (.log l) : Entry (Note ν κ)), isNeutral e = true := by
  intro e he
  obtain ⟨l, -, rfl⟩ := List.mem_map.mp he
  rfl

theorem neutral_of_notes {notes : List (Note ν κ)}
    (h : ∀ n ∈ notes, isNeutral (.note n) = true) :
    ∀ e ∈ notes.map (Entry.note (ε := Note ν κ)), isNeutral e = true := by
  intro e he
  obtain ⟨n, hn, rfl⟩ := List.mem_map.mp he
  exact h n hn

/-- What becomes of a command is logged, told and counted. -/
theorem notes_conclude (s : State κ τ) (c : Command) (result : Except LinkError Unit) :
    ((conclude s c result : Outcome _ (Item κ γ) _).notes.map Entry.note :
        List (Entry (Note ν κ))) =
      (Tally.log c result).map (fun l => .note (.log l)) ++ [.note (.finished c result)] := by
  simp [conclude, onHub]

theorem tally_setConnected (h : Hub κ) (k : ChannelKind) (b : Bool) :
    (h.setConnected k b).tally = h.tally := by
  cases k <;> rfl

theorem tally_watch (h : Hub κ) (k : ChannelKind) (listener : κ) :
    (h.watch k listener).tally = h.tally := by
  cases k <;> rfl

theorem Ledger.work (h : Ledger tasks past w) (hs : Shaped w.agenda) {item : Item κ γ}
    {rest : List (Task (Item κ γ))} {o : Outcome (State κ τ) (Item κ γ) (Note ν κ)}
    (ha : w.agenda = .work item :: rest) (hp : Performed C w.view w.state item o)
    (hw : w' = { w.record (o.notes.map .note) with state := o.state, agenda := o.next ++ rest })
    (hacc : Accounted (commandSeen (past ++ (o.notes.map Entry.note).map (w, ·))) w'.command) :
    Ledger (tasks ++ (some (.work item) : Option (Task (Item κ γ))).toList)
      (past ++ (o.notes.map Entry.note).map (w, ·)) w' := by
  rw [ha] at hs
  have hcalm := hs.tail (by simp)
  have hagenda : w'.agenda = o.next ++ rest := by rw [hw]
  have hstate : w'.state = o.state := by rw [hw]
  -- an item that is no command, and from which none follows
  have hneutral (hi : isSending (.work item) = false) (hd : Manager.asked [Task.work item] = [])
      (hnotes : ∀ n ∈ o.notes, isNeutral (.note n) = true)
      (hnext : ∀ t ∈ o.next, isSending t = false)
      (ht : o.state.hub.tally = w.state.hub.tally) :
      Ledger (tasks ++ (some (Task.work item)).toList)
        (past ++ (o.notes.map Entry.note).map (w, ·)) w' := by
    have hn : ∀ t, w.agenda.head? = some t → isSending t = false := by
      rw [ha]
      intro t htask
      obtain rfl := Option.some.inj htask
      exact hi
    have hn' : ∀ t, w'.agenda.head? = some t → isSending t = false := by
      rw [hagenda]
      exact fun t => head_not_sending hnext hcalm
    refine h.neutral hacc (neutral_of_notes hnotes) (fun link => ?_) ?_ (by rw [hstate, ht])
    · rw [inHand_eq_nil hn, inHand_eq_nil hn']
    · rw [sending_eq_nil hn, sending_eq_nil hn', Option.toList_some, hd]
      rfl
  cases hp with
  | @encoded c text he =>
    refine h.neutral hacc (by simp [onHub, isNeutral]) (fun link => ?_) ?_ (by rw [hstate]; rfl)
    · simp [inHand, ha, hagenda, onHub]
    · simp [sending, ha, hagenda, onHub, Manager.asked]
  | @unencoded c e he =>
    have hrest : w'.agenda = rest := hagenda
    have hn' : ∀ t, w'.agenda.head? = some t → isSending t = false := by
      rw [hrest]
      exact fun t ht => not_sending_of_calm (hcalm t (List.mem_of_head? ht))
    refine h.conclude (notes_conclude _ _ _) (neutral_of_logs _) hacc (fun link => ?_)
      (inHand_eq_nil hn') ?_ (sending_eq_nil hn') (by rw [hstate]; rfl)
    · simp [inHand, ha, Except.toBool]
    · simp [sending, ha, Manager.asked]
  | sent c result =>
    have hrest : w'.agenda = rest := hagenda
    have hn' : ∀ t, w'.agenda.head? = some t → isSending t = false := by
      rw [hrest]
      exact fun t ht => not_sending_of_calm (hcalm t (List.mem_of_head? ht))
    refine h.conclude (notes_conclude _ _ _) (neutral_of_logs _) hacc (fun link => ?_)
      (inHand_eq_nil hn') ?_ (sending_eq_nil hn') (by rw [hstate]; rfl)
    · cases result <;> simp [inHand, ha, Except.toBool]
    · simp [sending, ha, Manager.asked]
  | changed =>
    exact hneutral rfl rfl (by simp [emit, onHub, isNeutral]) (calls_not_sending _ _ _)
      (tally_setConnected _ _ _)
  | received =>
    exact hneutral rfl rfl (by simp [emit, onHub, isNeutral]) (calls_not_sending _ _ _) rfl
  | consulted | called =>
    exact hneutral rfl rfl (by simp [consult, isNeutral]) (by simp [consult, isSending]) rfl
  | watched =>
    exact hneutral rfl rfl (by simp [onHub, isNeutral]) (by simp [onHub, isSending])
      (tally_watch _ _ _)
  | _ =>
    exact hneutral rfl rfl (by simp [onHub, isNeutral]) (by simp [onHub, isSending]) rfl

theorem Ledger.took (h : Ledger tasks past w) (hs : Shaped w.agenda) (ht : Took C w w' t done es)
    (hacc : Accounted (commandSeen (past ++ es.map (w, ·))) w'.command) :
    Ledger (tasks ++ done.toList) (past ++ es.map (w, ·)) w' := by
  cases ht with
  | outside hstate ha hk =>
    obtain ⟨-, links, hc⟩ := hk .command
    have hc : w'.command = { w.command with links } := hc
    have hsender : w'.command.sender = w.command.sender := by rw [hc]
    refine h.neutral hacc (by simp) (fun link => ?_) ?_ (by rw [hstate])
    · rw [inHand, inHand, ha, hsender]
    · rw [sending, sending, ha]
      exact (List.append_nil _).symm
  | ask r ha hw =>
    have hn : ∀ t, w.agenda.head? = some t → isSending t = false := by simp [ha]
    have hn' : ∀ t, w'.agenda.head? = some t → isSending t = false := by
      simp [hw, request, isSending]
    refine h.neutral hacc (by simp) (fun link => ?_) ?_ (by rw [hw])
    · rw [inHand_eq_nil hn, inHand_eq_nil hn']
    · rw [sending_eq_nil hn, sending_eq_nil hn']
      rfl
  | @work _ item rest o ha hp hw => exact h.work hs ha hp hw hacc
  | @connect _ k rest ha hw =>
    rw [ha] at hs
    have hn : ∀ t, w.agenda.head? = some t → isSending t = false := by simp [ha, isSending]
    have hn' : ∀ t, w'.agenda.head? = some t → isSending t = false := by
      rw [hw, agenda_settle, callback_connect]
      cases hs with
      | calm hcalm => simp [isCalm] at hcalm
      | connects => simp [hearing, isSending]
      | connect hcalm => exact fun t => head_not_sending (by simp [hearing]) hcalm
    refine h.neutral hacc (neutral_ofMove fun _ => connect_not_traffic _) (fun link => ?_) ?_ ?_
    · rw [inHand_eq_nil hn, inHand_eq_nil hn']
    · rw [sending_eq_nil hn, sending_eq_nil hn']
      rfl
    · rw [hw, state_settle]
  | @teardown _ k rest ha hw =>
    rw [ha] at hs
    have hn : ∀ t, w.agenda.head? = some t → isSending t = false := by simp [ha, isSending]
    have hn' : ∀ t, w'.agenda.head? = some t → isSending t = false := by
      rw [hw, agenda_settle]
      exact fun t => head_not_sending (hearing_not_sending k _) (hs.tail (by simp))
    refine h.neutral hacc (neutral_ofMove fun _ => teardown_not_traffic _ _) (fun link => ?_) ?_ ?_
    · rw [inHand_eq_nil hn, inHand_eq_nil hn']
    · rw [sending_eq_nil hn, sending_eq_nil hn']
      rfl
    · rw [hw, state_settle]
  | @sent _ c text rest m ha he hm hw =>
    obtain ⟨link, hsender, -, -, rfl⟩ := send_eq_ok.mp hm
    refine h.send he ?_ hacc (fun link => ?_) (hw ▸ agenda_settle ..) ?_ rfl ?_
    · rw [hw]
      exact hsender
    · simp [inHand, ha]
    · simp [sending, ha]
    · rw [hw, state_settle]
  | @refused _ c text rest e ha he hm hw =>
    refine h.neutral hacc (by simp) (fun link => ?_) ?_ (by rw [hw])
    · simp [inHand, ha, hw]
    · simp [sending, ha, hw, Manager.asked]
  | @drive _ u k m ha hd hu hw =>
    have hn : ∀ t, w.agenda.head? = some t → isSending t = false := by simp [ha]
    have hu' : u.agenda = [] ∧ u.state = w.state := by
      rcases hu with rfl | rfl <;> exact ⟨ha, rfl⟩
    have hn' : ∀ t, w'.agenda.head? = some t → isSending t = false := by
      rw [hw, agenda_settle, hu'.1]
      exact fun t => head_not_sending (hearing_not_sending k _) (by simp)
    have hstate : w'.state.hub.tally = w.state.hub.tally := by rw [hw, state_settle, hu'.2]
    have hneutral (hm : k = .command → ∀ e ∈ m.seen, e.isTraffic = false) :
        Ledger (tasks ++ (none : Option (Task (Item κ γ))).toList)
          (past ++ (Entry.ofMove k m).map (w, ·)) w' := by
      refine h.neutral hacc (neutral_ofMove hm) (fun link => ?_) ?_ hstate
      · rw [inHand_eq_nil hn, inHand_eq_nil hn']
      · rw [sending_eq_nil hn, sending_eq_nil hn']
        rfl
    cases hd with
    | discard => exact hneutral fun _ => discard_not_traffic _ _
    | reap => exact hneutral fun _ => by simp [Socket.reap, logWarn, Happening.isTraffic]
    | step hr hstep =>
      rcases hstep.traffic with ⟨link, text, fate, queue, hseen, hcall, hq⟩ | hquiet
      · cases k with
        | live => exact hneutral fun hk => by cases hk
        | command =>
          have hes : Entry.ofMove (ε := Note ν κ) .command m =
              [.socket .command (.write link text fate)] := by
            rw [Entry.ofMove, hseen, hcall]
            rfl
          rw [hes] at hacc ⊢
          rw [Option.toList_none, List.append_nil]
          exact h.write hq hacc (inHand_eq_nil hn) (inHand_eq_nil hn') (sending_eq_nil hn)
            (sending_eq_nil hn') hstate
      · exact hneutral fun _ => hquiet

end Step

/-- What becomes of commands in a run that does `tasks`, has the history `past` and ends in
`w`. -/
structure Delivered (tasks : List (Task (Item κ γ)))
    (past : List (System κ γ τ ν × Entry (Note ν κ))) (w : System κ γ τ ν) : Prop where
  /-- A text goes out only in its turn, behind the command that it encodes. -/
  matched : Each Matched past
  /-- What has gone out on a link is the first part of what was accepted for it. -/
  ordered : ∀ link, ∃ waiting : List String,
    (accepted link past).map Command.encode = (written link past ++ waiting).map Except.ok
  /-- On a link that the client has dismissed it is all of it. -/
  whole : ∀ link, .dismissed link ∈ commandSeen past →
    (accepted link past).map Command.encode = (written link past).map Except.ok
  /-- Commands come to an end in the order in which they were to be sent, all but the one
  that is being sent. -/
  asked : asked tasks = (finished past).map Prod.fst ++ sending w
  sent : w.state.hub.tally.sent = (finished past).countP isOk
  dropped : w.state.hub.tally.dropped = (finished past).countP fun p => !isOk p
  total : w.state.hub.tally.sent + w.state.hub.tally.dropped + (sending w).length =
    (Manager.asked tasks).length

theorem Ledger.delivered {tasks : List (Task (Item κ γ))}
    {past : List (System κ γ τ ν × Entry (Note ν κ))} {w : System κ γ τ ν}
    (h : Ledger tasks past w) : Delivered tasks past w where
  matched := h.matched
  ordered := h.ordered
  asked := h.asked
  sent := h.sent
  dropped := h.dropped
  whole link hd := by
    obtain ⟨hr, hsender, -⟩ := h.account.dismissed link hd
    have hin : inHand link w = [] := by
      unfold inHand
      split
      · exact if_neg hsender
      · rfl
    have hacc := h.balance link
    rw [hin, List.append_nil] at hacc
    rw [← hacc, h.account.balance link, hr]
    simp [written]
  total := by
    have hlen := congrArg List.length h.asked
    rw [List.length_append, List.length_map] at hlen
    rw [h.sent, h.dropped, hlen, List.length_eq_countP_add_countP isOk (l := finished past)]
    simp

/-- Commands are neither replayed nor reordered, and none leaks from one link to another, in
whatever order a client sends, connects and disconnects while links open, end and answer. -/
theorem run_delivered (C : Client κ γ τ ν) (c : Config) (live command : List (Reply Answer))
    (client : τ) (turns : List (Turn κ γ)) :
    let w : System κ γ τ ν := ofConfig c live command client
    Delivered (done C turns w) (history C turns w) (run C turns w) := by
  intro w
  obtain ⟨settings, script, hk⟩ := socket_ofConfig (κ := κ) (γ := γ) (ν := ν) c live command client
    .command
  have hk : w.command = .ofSettings settings script := hk
  have hw : w.agenda = [] := agenda_ofConfig c live command client
  have hs : w.state = ⟨.empty, client⟩ := state_ofConfig c live command client
  refine (run_invariant C (P := Ledger) (fun tasks past w w' t done es hshape ht hk h => ?_) turns w
    (shaped_ofConfig c live command client) ?_).delivered
  · obtain ⟨b, m, hm⟩ := hk .command
    refine h.took hshape ht ?_
    have hsocket : w'.command = m.socket := hm.socket
    rw [commandSeen_append, hm.seen, hsocket]
    exact h.account.shift hm.shift
  · have hn : ∀ t, w.agenda.head? = some t → isSending t = false := by simp [hw]
    refine
      { account := by rw [hk]; exact accounted_ofSettings settings script
        balance := fun link => by rw [inHand_eq_nil hn]; rfl
        ordered := fun link => ⟨[], rfl⟩
        matched := each_nil _
        asked := by rw [sending_eq_nil hn]; rfl
        sent := by rw [hs]; rfl
        dropped := by rw [hs]; rfl }

end Manager

end TwinLink
