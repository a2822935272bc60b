/-
What comes of the bytes that a client sends on a connection.

* `Session.said`: what the lines of a stream say, one after the other;
* `Session.answers`: requests carried out one after the other, with their
  replies;
* `Session.hear`: the conversation that lines make;
* `Session.heard_pump`: what is served of the bytes that have arrived, whatever
  comes after them;
* `Session.outcome_serveWith`: a stream makes the conversation of its lines,
  however it is cut;
* `Session.conversation_of_stream`: which requests are carried out and what is
  sent.

What has arrived is served at once, so the invariant between two pieces of a
stream looks ahead: the conversation of the whole stream is what has been sent,
followed by the conversation of the beginning of a line that is kept and of the
bytes still to come.
-/
import QuorumStore.Proofs.EndOfStream
import QuorumStore.Replica.History
import QuorumStore.Service.Session

namespace QuorumStore

namespace Reply

/-- Whether a reply fits into a frame. -/
def Fits (r : Reply) : Prop :=
  r.toJson.render.utf8ByteSize ≤ Frame.maxLength

instance : DecidablePred Fits := fun r =>
  inferInstanceAs (Decidable (r.toJson.render.utf8ByteSize ≤ Frame.maxLength))

/-- The line of a reply, with its newline. -/
def line (r : Reply) : String :=
  r.toJson.render.push '\n'

end Reply

namespace Session

/-! ### What lines say -/

/-- What a line says to a replica. -/
inductive Said where
  /-- It is blank. -/
  | nothing
  /-- It spells a request. -/
  | request (asked : Request)
  /-- It is no request, for the given reason. -/
  | unreadable (error : FrameError)

/-- What the text of a line says, if the line has a text. -/
def Said.ofText : Except FrameError String → Said
  | .error e => .unreadable e
  | .ok text =>
    if isBlankText text then .nothing
    else
      match Request.parse? text with
      | some asked => .request asked
      | none => .unreadable .malformed

/-- What a line says, which is given without its newline. -/
def Said.ofLine (line : Bytes) : Said :=
  if Frame.maxLength < line.length then .unreadable (.tooLong Frame.maxLength)
  else .ofText (Decoder.lineText line)

/-- What the lines of a stream say.  The bytes after the last newline are a line
too. -/
def said (stream : Bytes) : List Said :=
  (stream.splitOn Frame.newline).map Said.ofLine

/-- The requests before the first line that is none. -/
def requests : List Said → List Request
  | [] => []
  | .nothing :: rest => requests rest
  | .request r :: rest => r :: requests rest
  | .unreadable _ :: _ => []

/-- What is wrong with the first line that is no request. -/
def fault? : List Said → Option FrameError
  | [] => none
  | .nothing :: rest => fault? rest
  | .request _ :: rest => fault? rest
  | .unreadable e :: _ => some e

lemma said_append (bs rest : Bytes) :
    said (bs ++ Frame.newline :: rest) = said bs ++ said rest := by
  rw [said, List.splitOn_append_cons_self, List.map_append]
  rfl

lemma said_of_notMem {line : Bytes} (hline : Frame.newline ∉ line) :
    said line = [.ofLine line] := by
  rw [said, List.splitOn_eq_singleton hline, List.map_singleton]

lemma said_cons {line : Bytes} (hline : Frame.newline ∉ line) (rest : Bytes) :
    said (line ++ Frame.newline :: rest) = .ofLine line :: said rest := by
  rw [said_append, said_of_notMem hline, List.singleton_append]

lemma Said.ofLine_of_long {line : Bytes} (h : Frame.maxLength < line.length) :
    Said.ofLine line = .unreadable (.tooLong Frame.maxLength) :=
  if_pos h

lemma Said.ofLine_of_fits {line : Bytes} (h : line.length ≤ Frame.maxLength) :
    Said.ofLine line = .ofText (Decoder.lineText line) :=
  if_neg (Nat.not_lt.mpr h)

/-- What the text of a line says is what comes of it. -/
lemma Said.ofText_eq (r : Except FrameError String) :
    Said.ofText r =
      match Decoder.reading Request.parse? r with
      | none => .nothing
      | some (.ok asked) => .request asked
      | some (.error e) => .unreadable e := by
  cases r with
  | error e => rfl
  | ok text =>
    cases hblank : isBlankText text with
    | true => simp [Said.ofText, Decoder.reading, hblank]
    | false =>
      cases hparse : Request.parse? text <;>
        simp [Said.ofText, Decoder.reading, Decoder.readLine, hblank, hparse]

lemma Said.ofLine_eq (line : Bytes) : Said.ofLine line = Said.ofText (Decoder.text line) := by
  by_cases fits : line.length ≤ Frame.maxLength
  · rw [Said.ofLine_of_fits fits, Decoder.text_of_fits fits]
  · rw [Said.ofLine_of_long (Nat.lt_of_not_le fits), Decoder.text_of_long fits, Said.ofText]

/-- Bytes begin with a line that is complete and not too long, or are the
beginning of a line, or begin with what is too long for a line already, whatever
follows. -/
lemma front_cases (bs : Bytes) :
    (∃ line rest, bs = line ++ Frame.newline :: rest ∧ Frame.newline ∉ line ∧
      line.length ≤ Frame.maxLength) ∨
    (Frame.newline ∉ bs ∧ bs.length ≤ Frame.maxLength) ∨
    (Decoder.frontLine bs = .overlong ∧
      ∀ more, ∃ rest, said (bs ++ more) = .unreadable (.tooLong Frame.maxLength) :: rest) := by
  by_cases hbs : Frame.newline ∈ bs
  · obtain ⟨line, rest, rfl, hline⟩ := List.eq_append_cons_of_mem hbs
    by_cases hfits : line.length ≤ Frame.maxLength
    · exact .inl ⟨line, rest, rfl, hline, hfits⟩
    · refine .inr (.inr ⟨?_, fun more => ⟨said (rest ++ more), ?_⟩⟩)
      · rw [Decoder.frontLine_line hline, if_neg hfits]
      · rw [List.append_assoc, List.cons_append, said_cons hline,
          Said.ofLine_of_long (Nat.lt_of_not_le hfits)]
  · by_cases hfits : bs.length ≤ Frame.maxLength
    · exact .inr (.inl ⟨hbs, hfits⟩)
    · refine .inr (.inr ⟨?_, fun more => ?_⟩)
      · rw [Decoder.frontLine_of_notMem hbs, if_neg hfits]
      · -- Where the line ends decides what follows it, not what it says.
        have long : ∀ ahead : Bytes, Frame.maxLength < (bs ++ ahead).length := fun ahead => by
          rw [List.length_append]
          omega
        by_cases hmore : Frame.newline ∈ more
        · obtain ⟨ahead, rest, rfl, hahead⟩ := List.eq_append_cons_of_mem hmore
          refine ⟨said rest, ?_⟩
          rw [← List.append_assoc, said_cons (by simp [hbs, hahead]),
            Said.ofLine_of_long (long ahead)]
        · refine ⟨[], ?_⟩
          rw [said_of_notMem (by simp [hbs, hmore]), Said.ofLine_of_long (long more)]

/-! ### What the decoder makes of a line -/

/-- A line is passed over if it is blank, and gives what it says otherwise. -/
lemma next_of_nextLine {d d' : Decoder} {r : Except FrameError String}
    (h : d.nextLine = (some r, d')) :
    d.next Request.parse? =
      match Said.ofText r with
      | .nothing => d'.next Request.parse?
      | .request asked => (some (.ok asked), d')
      | .unreadable e => (some (.error e), d') := by
  rw [Decoder.next_of_nextLine Request.parse? h, Said.ofText_eq]
  cases Decoder.reading Request.parse? r with
  | none => rfl
  | some told => cases told <;> rfl

/-! ### The conversation of some lines -/

section

variable {σ : Type} (wording : FrameError → String) (env : Surroundings σ)

/-- Carries out requests one after the other; the replies, and what is left. -/
def answers : List Request → σ → List Reply × σ
  | [], s => ([], s)
  | asked :: rest, s =>
    let (reply, s) := Coordination.dispatch env asked s
    let (more, s) := answers rest s
    (reply :: more, s)

/-- What is sent in the end and how the connection stands then, if the first
line that is no request is wrong in the given way. -/
def farewell : Option FrameError → List String × State
  | none => ([], .live)
  | some .notText => ([], .failed .notText)
  | some e =>
    let reply : Reply := .error (.badRequest (wording e))
    if reply.Fits then ([reply.line], .closed) else ([], .failed (.tooLong Frame.maxLength))

/-- The conversation that lines make: what is sent, how the connection stands in
the end, and what is left. -/
def hear : List Said → σ → List String × State × σ
  | [], s => ([], .live, s)
  | .nothing :: rest, s => hear rest s
  | .unreadable e :: _, s => ((farewell wording (some e)).1, (farewell wording (some e)).2, s)
  | .request asked :: rest, s =>
    let (reply, s) := Coordination.dispatch env asked s
    if reply.Fits then
      let (more, state, s) := hear rest s
      (reply.line :: more, state, s)
    else ([], .failed (.tooLong Frame.maxLength), s)

/-- What was sent before. -/
def after {β : Type} (sent : List String) (more : List String × β) : List String × β :=
  (sent ++ more.1, more.2)

/-- What a connection comes to, apart from the bytes that are not read. -/
def outcome (served : List String × Session × σ) : List String × State × σ :=
  (served.1, served.2.1.state, served.2.2)

lemma send_eq (c : Session) (reply : Reply) (state : State) :
    c.send reply state =
      if reply.Fits then ([reply.line], { c with state })
      else ([], { c with state := .failed (.tooLong Frame.maxLength) }) := by
  by_cases fits : reply.Fits
  · rw [send, Frame.encode, if_neg (Nat.not_lt.mpr fits), if_pos fits]
    rfl
  · rw [send, Frame.encode, if_pos (Nat.lt_of_not_le fits), if_neg fits]

/-! ### Serving what has arrived -/

section

variable {step : Decoder → Option (Except FrameError Request) × Decoder} {c : Session}
  {d : Decoder} (fuel : Nat) (s : σ)

lemma pump_of_none (h : step c.decoder = (none, d)) :
    pump wording step env (fuel + 1) c s = ([], { c with decoder := d }, s) := by
  simp only [pump, h]

/-- Where a decoder gives nothing and stays as it is, nothing is served. -/
lemma pump_of_idle (h : step d = (none, d)) (state : State) :
    pump wording step env fuel ⟨d, state⟩ s = ([], ⟨d, state⟩, s) := by
  cases fuel with
  | zero => rfl
  | succ fuel => exact pump_of_none wording env fuel s h

/-- A line that is no request ends the connection. -/
lemma pump_of_error {e : FrameError} (h : step c.decoder = (some (.error e), d)) :
    pump wording step env (fuel + 1) c s =
      ((farewell wording (some e)).1, ⟨d, (farewell wording (some e)).2⟩, s) := by
  cases e <;> simp only [pump, h, farewell, send_eq] <;> split_ifs <;> rfl

/-- A request is carried out; the reply is sent, or ends the connection. -/
lemma pump_of_request {asked : Request} (h : step c.decoder = (some (.ok asked), d)) :
    pump wording step env (fuel + 1) c s =
      let answered := Coordination.dispatch env asked s
      if answered.1.Fits then
        after [answered.1.line] (pump wording step env fuel ⟨d, .live⟩ answered.2)
      else ([], ⟨d, .failed (.tooLong Frame.maxLength)⟩, answered.2) := by
  by_cases fits : (Coordination.dispatch env asked s).1.Fits
  · simp only [pump, h, send_eq, if_pos fits]
    rfl
  · simp only [pump, h, send_eq, if_neg fits]
    rfl

/-- Decoders that give the same are served alike. -/
lemma pump_congr {d' : Decoder} {state : State} (h : step d = step d') :
    pump wording step env (fuel + 1) ⟨d, state⟩ s =
      pump wording step env (fuel + 1) ⟨d', state⟩ s := by
  simp only [pump, h]

end

/-- Whether something is what serves the bytes that have arrived, whatever comes
after them. -/
inductive Heard (bs : Bytes) (s : σ) : List String × Session × σ → Prop where
  /-- More lines are waited for; the beginning of the next one is kept. -/
  | waiting (sent : List String) (kept : Bytes) (s' : σ) (unended : Frame.newline ∉ kept)
      (fits : kept.length ≤ Frame.maxLength)
      (ahead : ∀ more, hear wording env (said (bs ++ more)) s =
        after sent (hear wording env (said (kept ++ more)) s')) :
      Heard bs s (sent, ⟨⟨kept, false⟩, .live⟩, s')
  /-- The connection has ended. -/
  | ended (sent : List String) (c : Session) (s' : σ) (shut : c.isOpen = false)
      (ahead : ∀ more, hear wording env (said (bs ++ more)) s = (sent, c.state, s')) :
      Heard bs s (sent, c, s')

variable {wording env}

/-- What serves the bytes behind a line serves all of them. -/
lemma Heard.after {bs rest : Bytes} {s s' : σ} {sent : List String}
    {served : List String × Session × σ}
    (h : ∀ more, hear wording env (said (bs ++ more)) s =
      Session.after sent (hear wording env (said (rest ++ more)) s'))
    (hserved : Heard wording env rest s' served) :
    Heard wording env bs s (Session.after sent served) := by
  cases hserved with
  | waiting sent' kept s'' unended fits ahead =>
    refine .waiting (sent ++ sent') kept s'' unended fits fun more => ?_
    simp only [h, ahead, Session.after, List.append_assoc]
  | ended sent' c s'' shut ahead =>
    refine .ended (sent ++ sent') c s'' shut fun more => ?_
    simp only [h, ahead, Session.after]

lemma isOpen_farewell (d : Decoder) (e : FrameError) :
    (⟨d, (farewell wording (some e)).2⟩ : Session).isOpen = false := by
  cases e with
  | notText => rfl
  | tooLong _ | malformed =>
    simp only [farewell]
    split_ifs <;> rfl

variable (wording env)

/-- **Bytes that have arrived are served to the end of their last line.** -/
theorem heard_pump (fuel : Nat) (bs : Bytes) (s : σ) (h : bs.length < fuel) :
    Heard wording env bs s
      (pump wording (Decoder.next Request.parse?) env fuel ⟨⟨bs, false⟩, .live⟩ s) := by
  induction hn : bs.length using Nat.strongRecOn generalizing bs fuel s with
  | ind n ih =>
    obtain ⟨fuel, rfl⟩ : ∃ k, fuel = k + 1 := ⟨fuel - 1, by omega⟩
    rcases front_cases bs with ⟨line, rest, rfl, hline, hfits⟩ | ⟨hbs, hfits⟩ | ⟨hlong, hsaid⟩
    · have shorter : rest.length < n := by
        rw [← hn, List.length_append, List.length_cons]
        omega
      have next := next_of_nextLine (Decoder.nextLine_of_line hline hfits rest)
      have front : ∀ more, said (line ++ Frame.newline :: rest ++ more) =
          .ofLine line :: said (rest ++ more) := fun more => by
        rw [List.append_assoc, List.cons_append, said_cons hline]
      rw [Said.ofLine_of_fits hfits] at front
      cases htold : Said.ofText (Decoder.lineText line) with
      | nothing =>
        rw [htold] at next front
        rw [pump_congr wording env fuel s next]
        have served := ih rest.length shorter (fuel + 1) rest s (by omega) rfl
        have skipped : ∀ more, hear wording env (said (line ++ Frame.newline :: rest ++ more)) s =
            after [] (hear wording env (said (rest ++ more)) s) := fun more => by
          rw [front]
          rfl
        exact served.after skipped
      | request asked =>
        rw [htold] at next front
        rw [pump_of_request wording env fuel s next]
        by_cases fits : (Coordination.dispatch env asked s).1.Fits
        · simp only [if_pos fits]
          have served := ih rest.length shorter fuel rest (Coordination.dispatch env asked s).2
            (by omega) rfl
          exact served.after fun more => by rw [front]; simp only [hear, if_pos fits]; rfl
        · simp only [if_neg fits]
          exact .ended _ _ _ rfl fun more => by rw [front]; simp only [hear, if_neg fits]
      | unreadable e =>
        rw [htold] at next front
        rw [pump_of_error wording env fuel s next]
        exact .ended _ _ _ (isOpen_farewell _ e) fun more => by rw [front]; rfl
    · have next := Decoder.next_of_none Request.parse? (Decoder.nextLine_of_unfinished hbs hfits)
      rw [pump_of_none wording env fuel s next]
      exact .waiting [] bs s hbs hfits fun more => rfl
    · have next := Decoder.next_of_error Request.parse? (Decoder.nextLine_of_overlong hlong)
      rw [pump_of_error wording env fuel s next]
      refine .ended _ _ _ (isOpen_farewell _ _) fun more => ?_
      obtain ⟨rest, hrest⟩ := hsaid more
      rw [hrest]
      rfl

/-! ### Serving a whole stream -/

/-- What is left in the end is nothing or a line that says what it says. -/
lemma last_of_kept {kept : Bytes} (hkept : Frame.newline ∉ kept)
    (hfits : kept.length ≤ Frame.maxLength) :
    ∃ d, (⟨kept, false⟩ : Decoder).last Request.parse? =
      match Said.ofLine kept with
      | .nothing => (none, d)
      | .request asked => (some (.ok asked), .empty)
      | .unreadable e => (some (.error e), d) := by
  by_cases bare : kept = [] ∨ kept = [Frame.carriageReturn]
  · -- A carriage return alone is left as it is, and says nothing as a line.
    have blank : Decoder.report Request.parse? kept = none :=
      (Decoder.report_eq_none_iff Request.parse?).mpr (Decoder.isBlankLine_of_bare bare)
    refine ⟨⟨kept, false⟩, ?_⟩
    rw [Said.ofLine_eq, Said.ofText_eq, ← Decoder.report, blank]
    exact Decoder.last_of_bare Request.parse? bare
  · refine ⟨.empty, ?_⟩
    rw [Decoder.last_of_unended Request.parse? hkept hfits bare, Said.ofLine_eq, Said.ofText_eq,
      ← Decoder.report]
    cases Decoder.report Request.parse? kept with
    | none => rfl
    | some told => cases told <;> rfl

/-- Serving what is left is hearing it as a line. -/
lemma outcome_hangUpWith {kept : Bytes} (hkept : Frame.newline ∉ kept)
    (hfits : kept.length ≤ Frame.maxLength) (s : σ) :
    outcome (hangUpWith wording env ⟨⟨kept, false⟩, .live⟩ s) = hear wording env (said kept) s := by
  have opened : (⟨⟨kept, false⟩, .live⟩ : Session).isOpen = true := rfl
  have nothing : Decoder.empty.last Request.parse? = (none, .empty) := rfl
  obtain ⟨d, hlast⟩ := last_of_kept hkept hfits
  rw [hangUpWith, if_pos opened, said_of_notMem hkept]
  cases htold : Said.ofLine kept with
  | nothing =>
    rw [htold] at hlast
    rw [pump_of_none wording env _ s hlast]
    rfl
  | request asked =>
    rw [htold] at hlast
    rw [pump_of_request wording env _ s hlast]
    simp only [pump_of_idle wording env _ _ nothing, hear]
    split_ifs <;> rfl
  | unreadable e =>
    rw [htold] at hlast
    rw [pump_of_error wording env _ s hlast]
    rfl

/-- A connection that has ended is served no more. -/
lemma serveWith_of_shut (pieces : List Bytes) {c : Session} (h : c.isOpen = false) (s : σ) :
    serveWith wording env pieces c s = ([], c, s) := by
  have shut : ¬ c.isOpen = true := by simp [h]
  induction pieces with
  | nil => rw [serveWith, hangUpWith, if_neg shut]
  | cons bs rest ih =>
    rw [serveWith, receiveWith, if_neg shut]
    simp only [ih, List.append_nil]

/-- **A stream makes the conversation of its lines, however it is cut.** -/
theorem outcome_serveWith (pieces : List Bytes) {kept : Bytes} (hkept : Frame.newline ∉ kept)
    (hfits : kept.length ≤ Frame.maxLength) (s : σ) :
    outcome (serveWith wording env pieces ⟨⟨kept, false⟩, .live⟩ s) =
      hear wording env (said (kept ++ pieces.flatten)) s := by
  induction pieces generalizing kept s with
  | nil =>
    rw [serveWith, outcome_hangUpWith wording env hkept hfits, List.flatten_nil, List.append_nil]
  | cons bs rest ih =>
    have opened : (⟨⟨kept, false⟩, .live⟩ : Session).isOpen = true := rfl
    have served := heard_pump wording env ((kept ++ bs).length + 1) (kept ++ bs) s
      (Nat.lt_succ_self _)
    have received : receiveWith wording env bs ⟨⟨kept, false⟩, .live⟩ s =
        pump wording (Decoder.next Request.parse?) env ((kept ++ bs).length + 1)
          ⟨⟨kept ++ bs, false⟩, .live⟩ s := by
      rw [receiveWith, if_pos opened]
      rfl
    rw [← received] at served
    rw [List.flatten_cons, ← List.append_assoc]
    simp only [serveWith]
    generalize receiveWith wording env bs ⟨⟨kept, false⟩, .live⟩ s = heard at served ⊢
    cases served with
    | waiting sent kept' s' unended fits ahead =>
      rw [ahead, ← ih unended fits]
      rfl
    | ended sent c s' shut ahead =>
      rw [ahead, serveWith_of_shut wording env rest shut]
      simp only [outcome, List.append_nil]

/-! ### The course of a conversation -/

/-- How a conversation goes that lines make. -/
inductive Course (told : List Said) (s : σ) : List String × State × σ → Prop where
  /-- Every request before the first line that is none has been carried out and
  its reply sent. -/
  | complete (replies : List Reply) (s' : σ)
      (carried : answers env (requests told) s = (replies, s'))
      (fits : ∀ reply ∈ replies, reply.Fits) :
      Course told s (replies.map Reply.line ++ (farewell wording (fault? told)).1,
        (farewell wording (fault? told)).2, s')
  /-- The reply to a request did not fit into a frame; it was not sent, and no
  later request has been carried out. -/
  | broken (carriedOut held : List Request) (replies : List Reply) (long : Reply) (s' : σ)
      (split : requests told = carriedOut ++ held)
      (carried : answers env carriedOut s = (replies ++ [long], s'))
      (fits : ∀ reply ∈ replies, reply.Fits) (unfit : ¬ long.Fits) :
      Course told s (replies.map Reply.line, .failed (.tooLong Frame.maxLength), s')

variable {wording env} in
/-- A blank line goes before a conversation without a trace. -/
lemma Course.blank {told : List Said} {s : σ} {heard : List String × State × σ}
    (h : Course wording env told s heard) : Course wording env (.nothing :: told) s heard := by
  cases h with
  | complete replies s' carried fits => exact .complete replies s' carried fits
  | broken carriedOut held replies long s' split carried fits unfit =>
    exact .broken carriedOut held replies long s' split carried fits unfit

variable {wording env} in
/-- A request goes before a conversation with its reply. -/
lemma Course.answer {told : List Said} {s s' : σ} {heard : List String × State × σ}
    {asked : Request} {reply : Reply} (hreply : Coordination.dispatch env asked s = (reply, s'))
    (hfits : reply.Fits) (h : Course wording env told s' heard) :
    Course wording env (.request asked :: told) s (after [reply.line] heard) := by
  have one : ∀ (later : List Request) (replies : List Reply) (s'' : σ),
      answers env later s' = (replies, s'') →
        answers env (asked :: later) s = (reply :: replies, s'') := fun later replies s'' h => by
    simp only [answers, hreply, h]
  cases h with
  | complete replies s'' carried fits =>
    exact .complete (reply :: replies) s'' (one _ _ _ carried)
      (List.forall_mem_cons.mpr ⟨hfits, fits⟩)
  | broken carriedOut held replies long s'' split carried fits unfit =>
    exact .broken (asked :: carriedOut) held (reply :: replies) long s''
      (congrArg (asked :: ·) split) (one _ _ _ carried) (List.forall_mem_cons.mpr ⟨hfits, fits⟩)
      unfit

/-- **Every conversation runs its course.** -/
theorem course_hear (told : List Said) (s : σ) :
    Course wording env told s (hear wording env told s) := by
  induction told generalizing s with
  | nil => exact .complete [] s rfl (by simp)
  | cons first rest ih =>
    cases first with
    | nothing => exact (ih s).blank
    | request asked =>
      have hreply : Coordination.dispatch env asked s = (_, _) := rfl
      simp only [hear]
      split_ifs with fits
      · exact (ih _).answer hreply fits
      · exact .broken [asked] (requests rest) [] _ _ rfl rfl (by simp) fits
    | unreadable e => exact .complete [] s rfl (by simp)

/-- A line that is no request leaves nothing to hear. -/
lemma hear_append_of_fault {told : List Said} (h : (fault? told).isSome) (more : List Said)
    (s : σ) : hear wording env (told ++ more) s = hear wording env told s := by
  induction told generalizing s with
  | nil => cases h
  | cons first rest ih =>
    cases first with
    | nothing => exact ih h s
    | request asked => simp only [List.cons_append, hear, ih h]
    | unreadable e => rfl

/-- A blank line at the end changes nothing. -/
lemma hear_append_nothing (told : List Said) (s : σ) :
    hear wording env (told ++ [.nothing]) s = hear wording env told s := by
  induction told generalizing s with
  | nil => rfl
  | cons first rest ih =>
    cases first with
    | nothing => exact ih s
    | request asked => simp only [List.cons_append, hear, ih]
    | unreadable e => rfl

/-- **What a client that sends a stream brings about.**  However the stream is
cut, the requests before the first line that is none are carried out one after
the other, each on what the ones before it have left, and a reply is sent for
each.  The line that is no request is answered by a reason that fits into a
frame, or by nothing if its bytes are not text, and no byte behind it has any
effect.  A reply that does not fit into a frame is the end of everything.  The
last line counts whether it ends in a newline or not. -/
theorem conversation_of_stream (pieces : List Bytes) (s : σ) :
    Course wording env (said pieces.flatten) s (outcome (serveWith wording env pieces start s)) ∧
    (∀ bs rest, pieces.flatten = bs ++ Frame.newline :: rest → (fault? (said bs)).isSome →
      outcome (serveWith wording env pieces start s) =
        outcome (serveWith wording env [bs] start s)) ∧
    outcome (serveWith wording env (pieces ++ [[Frame.newline]]) start s) =
      outcome (serveWith wording env pieces start s) := by
  have nothing : Frame.newline ∉ ([] : Bytes) := List.not_mem_nil
  have heard : ∀ pieces : List Bytes, outcome (serveWith wording env pieces start s) =
      hear wording env (said pieces.flatten) s := fun pieces =>
    outcome_serveWith wording env pieces nothing (Nat.zero_le _) s
  simp only [heard]
  refine ⟨course_hear wording env _ s, fun bs rest hflatten hfault => ?_, ?_⟩
  · rw [hflatten, said_append, hear_append_of_fault wording env hfault, List.flatten_singleton]
  · have blank : said [] = [.nothing] := said_of_notMem nothing
    rw [List.flatten_append, List.flatten_singleton, said_append, blank, hear_append_nothing]

/-- A request and a line that is none, cut in the middle of the request; what
follows them is not looked at. -/
theorem conversation_of_stream_cut :
    let bs := Utf8.bytes (Request.gossip.toJson.render ++ "\r\n \n?")
    let rest := Utf8.bytes (Request.gossip.toJson.render ++ "\n")
    (fault? (said bs)).isSome = true ∧
    outcome (serveWith FrameError.message Answered.surroundings
        [bs.take 7, bs.drop 7 ++ Frame.newline :: rest] start ⟨default, []⟩) =
      outcome (serveWith FrameError.message Answered.surroundings [bs] start ⟨default, []⟩) := by
  intro bs rest
  have fault : (fault? (said bs)).isSome = true := by decide +kernel
  have whole : [bs.take 7, bs.drop 7 ++ Frame.newline :: rest].flatten =
      bs ++ Frame.newline :: rest := by
    rw [List.flatten_cons, List.flatten_singleton, ← List.append_assoc, List.take_append_drop]
  exact ⟨fault, (conversation_of_stream FrameError.message Answered.surroundings _ _).2.1
    bs rest whole fault⟩

end

end Session

end QuorumStore
