import Imageboard.Federation.Delivery
import Imageboard.Proofs.Federation.KeyResolver
import Imageboard.Proofs.Signature.Sending

namespace Imageboard

variable {α β : Type}

namespace Outward

theorem run_attempt_bind {x : Outward α} {f : Except Fault α → Outward β} {log : Log} :
    (attempt x >>= f).run.run log = (f (x.run.run log).1).run.run (x.run.run log).2 :=
  rfl

theorem run_lift_bind {x : Except Fault α} {f : α → Outward β} {log : Log} :
    ((liftM x : Outward α) >>= f).run.run log =
      match x with
      | .ok a => (f a).run.run log
      | .error e => (.error e, log) := by
  cases x <;> rfl

theorem run_bind_snd {x : Outward α} {f : α → Outward β} {log : Log}
    (quiet : ∀ a log, ((f a).run.run log).2 = log) :
    ((x >>= f).run.run log).2 = (x.run.run log).2 := by
  change (ExceptT.bindCont f (x.run.run log).1 (x.run.run log).2).2 = _
  rcases x.run.run log with ⟨_ | a, log'⟩
  · rfl
  · exact quiet a log'

end Outward

def WebReply.isSuccess : WebReply → Bool
  | .dropped => false
  | .answered status _ => 200 ≤ status && status < 300

namespace Web

variable {web : Web} {log : Log} {url : String} {asking accepting : Task}

theorem run_send_bind {q : WebRequest} {f : WebReply → Outward β} :
    (web.send q >>= f).run.run log = (f (web log q)).run.run (log ++ [.requested q]) :=
  rfl

theorem fetch_run_snd : ((web.fetch url asking accepting).run.run log).2 =
    log ++ [.requested (Web.asking url)] := by
  unfold fetch
  refine Outward.run_bind_snd fun reply log => ?_
  cases reply with
  | dropped => rfl
  | answered status body =>
    dsimp only
    split <;> rfl

def exchanges (web : Web) : Log → List WebRequest → List (WebRequest × WebReply)
  | _, [] => []
  | log, q :: qs => (q, web log q) :: web.exchanges (log ++ [.requested q]) qs

theorem exchanges_append (web : Web) (log : Log) (qs qs' : List WebRequest) :
    web.exchanges log (qs ++ qs') =
      web.exchanges log qs ++ web.exchanges (log ++ qs.map .requested) qs' := by
  induction qs generalizing log with
  | nil => simp [exchanges]
  | cons q qs ih => simp [exchanges, ih]

end Web

namespace Delivery

variable {web : Web} {log : Log} {r inbox pem keyId body : String} {now : Instant}

def Finds (web : Web) (log : Log) (r inbox : String) : Prop :=
  ((resolveInbox web r).run.run log).1 = .ok inbox

theorem resolveInbox_run_snd : ((resolveInbox web r).run.run log).2 =
    log ++ [.requested (Web.asking r)] := by
  refine (Outward.run_bind_snd fun text log => ?_).trans Web.fetch_run_snd
  split <;> rfl

def unsigned (uri : Uri) : RequestHead where
  method := .post
  uri
  headers := [(.accept, activityType), (.contentType, activityType)]

/-- The request that takes a body to an inbox, signed by a key, if there is one. -/
def parcel? (now : Instant) (pem keyId body inbox : String) : Option WebRequest := do
  let uri ← Uri.parse? inbox
  let request ← ((unsigned uri).sign pem keyId signedHeaders (Text.utf8 body) now).toOption
  return { method := "POST", url := inbox, headers := request.headers, body }

theorem parcel?_of_sign {uri : Uri} {request : RequestHead} (haddress : Uri.parse? inbox = some uri)
    (hsign : (unsigned uri).sign pem keyId signedHeaders (Text.utf8 body) now = .ok request) :
    parcel? now pem keyId body inbox =
      some { method := "POST", url := inbox, headers := request.headers, body } := by
  simp [parcel?, haddress, hsign, Except.toOption]

theorem parcel?_eq_some {q : WebRequest} (h : parcel? now pem keyId body inbox = some q) :
    q.method = "POST" ∧ q.url = inbox ∧ q.body = body := by
  obtain ⟨uri, -, h⟩ := Option.bind_eq_some_iff.1 h
  obtain ⟨request, -, h⟩ := Option.bind_eq_some_iff.1 h
  obtain rfl := Option.some.inj h
  exact ⟨rfl, rfl, rfl⟩

def isTaken (web : Web) (log : Log) (parcel : Option WebRequest) : Bool :=
  parcel.any fun q => (web log q).isSuccess

def Sends (web : Web) (x : Outward Unit) (parcel : Option WebRequest) : Prop :=
  ∀ log, ∃ result, x.run.run log = (result, log ++ parcel.toList.map .requested) ∧
    result.isOk = isTaken web log parcel

theorem sends_post (web : Web) (now : Instant) (pem keyId inbox body : String) :
    Sends web (post web now pem keyId inbox body) (parcel? now pem keyId body inbox) := by
  intro log
  have unsent {f : Fault} {x : Except Fault Unit × Log} (h : x = (.error f, log)) :
      ∃ result, x = (result, log ++ (none : Option WebRequest).toList.map .requested) ∧
        result.isOk = isTaken web log none :=
    ⟨.error f, by simpa using h, rfl⟩
  unfold post parcel? unsigned
  rw [Outward.run_lift_bind]
  cases Uri.parse? inbox with
  | none => exact unsent rfl
  | some uri =>
    dsimp only [Option.orBreak, Except.doing, Option.bind_eq_bind, Option.bind_some]
    rw [Outward.run_lift_bind]
    cases RequestHead.sign _ pem keyId signedHeaders (Text.utf8 body) now with
    | error f => exact unsent rfl
    | ok request =>
      dsimp only [Except.toOption, Option.bind_some]
      rw [Web.run_send_bind]
      simp only [isTaken, Option.any, pure]
      cases web log _ with
      | dropped => exact ⟨.error _, rfl, rfl⟩
      | answered status text =>
        dsimp only [WebReply.isSuccess]
        split
        next h => exact ⟨.ok (), rfl, h.symm⟩
        next h => exact ⟨.error _, rfl, (Bool.eq_false_of_not_eq_true h).symm⟩

/-- What comes of a recipient. -/
inductive Turn where
  | lost (recipient : String)
  /-- Its inbox had its turn before. -/
  | shared (recipient inbox : String)
  | sent (recipient inbox : String) (taken : Bool)

namespace Turn

def recipient : Turn → String
  | lost r | shared r _ | sent r _ _ => r

def inbox? : Turn → Option String
  | lost _ => none
  | shared _ inbox | sent _ inbox _ => some inbox

def served? : Turn → Option String
  | lost _ | shared _ _ => none
  | sent _ inbox _ => some inbox

def isReached : Turn → Bool
  | sent _ _ taken => taken
  | _ => false

def isFailed : Turn → Bool
  | lost _ => true
  | shared _ _ => false
  | sent _ _ taken => !taken

/-- What goes out: the search for the inbox, then what there is to send to it. -/
def requests (parcel : String → Option WebRequest) (t : Turn) : List WebRequest :=
  Web.asking t.recipient :: (t.served?.bind parcel).toList

variable {r inbox : String} {taken : Bool} {parcel : String → Option WebRequest}

@[simp] theorem requests_lost : (lost r).requests parcel = [Web.asking r] :=
  rfl

@[simp] theorem requests_shared : (shared r inbox).requests parcel = [Web.asking r] :=
  rfl

@[simp] theorem requests_sent :
    (sent r inbox taken).requests parcel = Web.asking r :: (parcel inbox).toList :=
  rfl

end Turn

/-- The turns of recipients, one after the other, by what the web answers to each; `tried` are the
inboxes that had their turn. -/
inductive Rounds (web : Web) (parcel : String → Option WebRequest) :
    (tried : List String) → Log → List Turn → Prop where
  | done {tried log} : Rounds web parcel tried log []
  | lost {tried log r turns} (unfound : ∀ inbox, ¬ Finds web log r inbox)
      (rest : Rounds web parcel tried
        (log ++ ((Turn.lost r).requests parcel).map .requested) turns) :
      Rounds web parcel tried log (.lost r :: turns)
  | shared {tried log r inbox turns} (found : Finds web log r inbox) (before : inbox ∈ tried)
      (rest : Rounds web parcel tried
        (log ++ ((Turn.shared r inbox).requests parcel).map .requested) turns) :
      Rounds web parcel tried log (.shared r inbox :: turns)
  | sent {tried log r inbox taken turns} (found : Finds web log r inbox) (first : inbox ∉ tried)
      (answer : taken = isTaken web (log ++ [.requested (Web.asking r)]) (parcel inbox))
      (rest : Rounds web parcel (inbox :: tried)
        (log ++ ((Turn.sent r inbox taken).requests parcel).map .requested) turns) :
      Rounds web parcel tried log (.sent r inbox taken :: turns)

variable {parcel : String → Option WebRequest} {send : String → Outward Unit}
  {tried recipients : List String} {t : Turn} {turns : List Turn} {report : DeliveryReport}

def tally (report : DeliveryReport) (turns : List Turn) : DeliveryReport :=
  { delivered := report.delivered + turns.countP Turn.isReached
    failed := report.failed ++ (turns.filter Turn.isFailed).map Turn.recipient }

theorem tally_nil : tally report [] = report := by
  simp [tally]

theorem tally_cons : tally report (t :: turns) = tally (tally report [t]) turns := by
  simp only [tally, List.countP_cons, List.countP_nil, List.filter_cons, List.filter_nil,
    DeliveryReport.mk.injEq]
  constructor
  · omega
  · split <;> simp

section Step

variable {rs : List String}

theorem toEach_lost (unfound : ∀ inbox, ¬ Finds web log r inbox) :
    (toEach web send tried (r :: rs) report).run.run log =
      (toEach web send tried rs (tally report [.lost r])).run.run
        (log ++ ((Turn.lost r).requests parcel).map .requested) := by
  unfold Finds at unfound
  rw [toEach, Outward.run_attempt_bind, resolveInbox_run_snd, Turn.requests_lost]
  cases hf : ((resolveInbox web r).run.run log).1 with
  | error f => rfl
  | ok inbox => exact absurd hf (unfound inbox)

theorem toEach_shared (found : Finds web log r inbox) (before : inbox ∈ tried) :
    (toEach web send tried (r :: rs) report).run.run log =
      (toEach web send tried rs (tally report [.shared r inbox])).run.run
        (log ++ ((Turn.shared r inbox).requests parcel).map .requested) := by
  have same : tally report [.shared r inbox] = report := by
    simp [tally, Turn.isReached, Turn.isFailed]
  rw [toEach, Outward.run_attempt_bind, resolveInbox_run_snd, found, Turn.requests_shared, same]
  dsimp only
  rw [if_pos before]
  rfl

theorem toEach_sent (sends : Sends web (send inbox) (parcel inbox))
    (found : Finds web log r inbox) (first : inbox ∉ tried) :
    let taken := isTaken web (log ++ [.requested (Web.asking r)]) (parcel inbox)
    (toEach web send tried (r :: rs) report).run.run log =
      (toEach web send (inbox :: tried) rs (tally report [.sent r inbox taken])).run.run
        (log ++ ((Turn.sent r inbox taken).requests parcel).map .requested) := by
  intro taken
  obtain ⟨result, hrun, hok⟩ := sends (log ++ [.requested (Web.asking r)])
  rw [toEach, Outward.run_attempt_bind, resolveInbox_run_snd, found]
  dsimp only
  rw [if_neg first, Outward.run_attempt_bind, hrun, Turn.requests_sent, List.map_cons,
    List.append_cons log _ ((parcel inbox).toList.map _)]
  have ht : taken = result.isOk := hok.symm
  rw [ht]
  cases result with
  | error f => rfl
  | ok _ => simp [tally, Turn.isReached, Turn.isFailed, Except.isOk, Except.toBool]

end Step

/-- The recipients have their turns, and the report tells of them. -/
theorem toEach_rounds (h : ∀ inbox, Sends web (send inbox) (parcel inbox)) :
    ∃ turns, turns.map Turn.recipient = recipients ∧ Rounds web parcel tried log turns ∧
      Yields (toEach web send tried recipients report) log (tally report turns)
        (log ++ (turns.flatMap (Turn.requests parcel)).map .requested) := by
  induction recipients generalizing tried log report with
  | nil =>
    refine ⟨[], rfl, .done, ?_⟩
    rw [tally_nil]
    exact yields_pure.2 ⟨rfl, (List.append_nil log).symm⟩
  | cons r rs ih =>
    -- what a turn comes to, given how it starts and what follows it
    have step (t : Turn) (ht : t.recipient = r) (tried' : List String)
        (hrun : (toEach web send tried (r :: rs) report).run.run log =
          (toEach web send tried' rs (tally report [t])).run.run
            (log ++ (t.requests parcel).map .requested))
        (hrounds : ∀ turns,
          Rounds web parcel tried' (log ++ (t.requests parcel).map .requested) turns →
            Rounds web parcel tried log (t :: turns)) :
        ∃ turns, turns.map Turn.recipient = r :: rs ∧ Rounds web parcel tried log turns ∧
          Yields (toEach web send tried (r :: rs) report) log (tally report turns)
            (log ++ (turns.flatMap (Turn.requests parcel)).map .requested) := by
      obtain ⟨turns, hr, hrest, hyields⟩ :=
        @ih (log ++ (t.requests parcel).map .requested) tried' (tally report [t])
      refine ⟨t :: turns, by rw [List.map_cons, ht, hr], hrounds turns hrest, ?_⟩
      rw [← tally_cons] at hyields
      rw [Yields, hrun, List.flatMap_cons, List.map_append, ← List.append_assoc]
      exact hyields
    by_cases hfound : ∃ inbox, Finds web log r inbox
    · obtain ⟨inbox, hfound⟩ := hfound
      by_cases before : inbox ∈ tried
      · exact step (.shared r inbox) rfl tried (toEach_shared hfound before)
          fun _ => .shared hfound before
      · exact step (.sent r inbox _) rfl (inbox :: tried) (toEach_sent (h inbox) hfound before)
          fun _ => .sent hfound before rfl
    · have unfound := not_exists.1 hfound
      exact step (.lost r) rfl tried (toEach_lost unfound) fun _ => .lost unfound

namespace Rounds

theorem served_not_mem (h : Rounds web parcel tried log turns) :
    ∀ inbox ∈ turns.filterMap Turn.served?, inbox ∉ tried := by
  induction h with
  | done => exact nofun
  | lost _ _ ih => exact ih
  | shared _ _ _ ih => exact ih
  | sent _ first _ _ ih =>
    intro inbox hm
    rcases List.mem_cons.1 hm with rfl | hm
    · exact first
    · exact fun ht => ih inbox hm (List.mem_cons_of_mem _ ht)

theorem served_nodup (h : Rounds web parcel tried log turns) :
    (turns.filterMap Turn.served?).Nodup := by
  induction h with
  | done => exact List.nodup_nil
  | lost _ _ ih => exact ih
  | shared _ _ _ ih => exact ih
  | sent _ _ _ rest ih =>
    exact List.nodup_cons.2 ⟨fun hm => rest.served_not_mem _ hm List.mem_cons_self, ih⟩

theorem mem_served (h : Rounds web parcel tried log turns) (ht : t ∈ turns)
    (hi : t.inbox? = some inbox) : inbox ∈ tried ∨ inbox ∈ turns.filterMap Turn.served? := by
  induction h with
  | done => cases ht
  | lost _ _ ih =>
    rcases List.mem_cons.1 ht with rfl | ht
    · cases hi
    · exact ih ht
  | shared _ before _ ih =>
    rcases List.mem_cons.1 ht with rfl | ht
    · cases hi
      exact .inl before
    · exact ih ht
  | sent _ _ _ _ ih =>
    rcases List.mem_cons.1 ht with rfl | ht
    · cases hi
      exact .inr List.mem_cons_self
    · rcases ih ht with hm | hm
      · rcases List.mem_cons.1 hm with rfl | hm
        · exact .inr List.mem_cons_self
        · exact .inl hm
      · exact .inr (List.mem_cons_of_mem _ hm)

theorem of_append {turns' : List Turn} (h : Rounds web parcel tried log (turns ++ turns')) :
    Rounds web parcel tried log turns := by
  induction turns generalizing tried log with
  | nil => exact .done
  | cons t turns ih =>
    cases h with
    | lost unfound rest => exact .lost unfound (ih rest)
    | shared found before rest => exact .shared found before (ih rest)
    | sent found first answer rest => exact .sent found first answer (ih rest)

theorem first {before after : List Turn} {taken : Bool}
    (h : Rounds web parcel tried log (before ++ .sent r inbox taken :: after)) :
    ∀ t ∈ before, t.inbox? ≠ some inbox := by
  intro t ht hi
  have hserved : inbox ∈ (Turn.sent r inbox taken :: after).filterMap Turn.served? :=
    List.mem_cons_self
  have hnodup := h.served_nodup
  rw [List.filterMap_append] at hnodup
  rcases h.of_append.mem_served ht hi with hm | hm
  · exact h.served_not_mem inbox (by simp [Turn.served?]) hm
  · exact List.disjoint_of_nodup_append hnodup hm hserved

end Rounds

def isPost (q : WebRequest) : Bool :=
  q.method == "POST"

def isTakenPost (e : WebRequest × WebReply) : Bool :=
  isPost e.1 && e.2.isSuccess

theorem isPost_asking (url : String) : isPost (Web.asking url) = false :=
  rfl

variable (posts : ∀ inbox q, parcel inbox = some q → q.method = "POST")

include posts

theorem isPost_parcel {p : Option String} {q : WebRequest} (h : q ∈ (p.bind parcel).toList) :
    isPost q = true := by
  obtain ⟨inbox, -, hp⟩ := Option.bind_eq_some_iff.1 (Option.mem_toList.1 h)
  rw [isPost, posts inbox q hp]
  rfl

/-- The requests to take something in, of all that went out, are one for each inbox that had its
turn. -/
theorem filter_isPost_requests : (turns.flatMap (Turn.requests parcel)).filter isPost =
    (turns.filterMap Turn.served?).filterMap parcel := by
  induction turns with
  | nil => rfl
  | cons t turns ih =>
    have here : (t.requests parcel).filter isPost = (t.served?.bind parcel).toList := by
      rw [Turn.requests, List.filter_cons_of_neg (by simp [isPost_asking]), List.filter_eq_self.2]
      exact fun q hq => isPost_parcel posts hq
    rw [List.flatMap_cons, List.filter_append, ih, here]
    cases t with
    | lost r => rfl
    | shared r inbox => rfl
    | sent r inbox taken => cases hp : parcel inbox <;> simp [Turn.served?, hp]

theorem filter_not_isPost_requests :
    (turns.flatMap (Turn.requests parcel)).filter (fun q => !isPost q) =
      turns.map fun t => Web.asking t.recipient := by
  induction turns with
  | nil => rfl
  | cons t turns ih =>
    have here : (t.requests parcel).filter (fun q => !isPost q) = [Web.asking t.recipient] := by
      rw [Turn.requests, List.filter_cons_of_pos (by simp [isPost_asking]),
        List.filter_eq_nil_iff.2]
      exact fun q hq => by simp [isPost_parcel posts hq]
    rw [List.flatMap_cons, List.filter_append, ih, here]
    rfl

theorem Rounds.countP_isTakenPost (h : Rounds web parcel tried log turns) :
    (web.exchanges log (turns.flatMap (Turn.requests parcel))).countP isTakenPost =
      turns.countP Turn.isReached := by
  have looks (log : Log) (r : String) : (web.exchanges log [Web.asking r]).countP isTakenPost = 0 :=
    rfl
  have takes (log : Log) (inbox : String) :
      (web.exchanges log (parcel inbox).toList).countP isTakenPost =
        if isTaken web log (parcel inbox) then 1 else 0 := by
    cases hp : parcel inbox with
    | none => rfl
    | some q =>
      have hpost := posts inbox q hp
      cases hs : (web log q).isSuccess <;>
        simp [Web.exchanges, isTakenPost, isPost, isTaken, hpost, hs]
  induction h with
  | done => rfl
  | lost _ _ ih =>
    rw [List.flatMap_cons, Web.exchanges_append, List.countP_append, ih, List.countP_cons]
    rw [Turn.requests_lost, looks]
    simp [Turn.isReached]
  | shared _ _ _ ih =>
    rw [List.flatMap_cons, Web.exchanges_append, List.countP_append, ih, List.countP_cons]
    rw [Turn.requests_shared, looks]
    simp [Turn.isReached]
  | sent _ _ answer _ ih =>
    rw [List.flatMap_cons, Web.exchanges_append, List.countP_append, ih, List.countP_cons,
      Turn.requests_sent, ← List.singleton_append, Web.exchanges_append, List.countP_append, looks,
      List.map_singleton, takes, ← answer, Turn.isReached]
    omega

omit posts

variable {a : Activity} {n : Node}

def others (a : Activity) (recipients : List String) : List String :=
  recipients.filter fun r => r != everyone && r != a.actorId

/-- What carries an activity to an inbox under the key of its sender. -/
def carrier? (now : Instant) (pem : String) (a : Activity) : String → Option WebRequest :=
  parcel? now pem (Actor.mainKey a.actorId) a.encode.render

theorem overWeb_rounds (web : Web) (now : Instant) (log : Log) (recipients : List String)
    (named : a.actorId ≠ "") (provisioned : n.privateKey a.actorId = .ok pem) :
    ∃ turns, turns.map Turn.recipient = others a recipients ∧
      Rounds web (carrier? now pem a) [] log turns ∧
      Yields (overWeb web now n a recipients) log (tally {} turns)
        (log ++ (turns.flatMap (Turn.requests (carrier? now pem a))).map .requested) := by
  have sends (inbox : String) :
      Sends web (post web now pem (Actor.mainKey a.actorId) inbox a.encode.render)
        (carrier? now pem a inbox) :=
    sends_post web now pem (Actor.mainKey a.actorId) inbox a.encode.render
  obtain ⟨turns, each, rounds, yields⟩ :=
    @toEach_rounds web log _ _ [] (others a recipients) {} sends
  refine ⟨turns, each, rounds, ?_⟩
  unfold overWeb
  dsimp only
  rw [if_neg named]
  exact yields_bind.2 ⟨pem, log, yields_lift.2 ⟨provisioned, rfl⟩, yields⟩

/-- What a delivery comes to, after a log: the turns of the recipients, what went out at them, and
what the report says. -/
structure Delivers (web : Web) (log : Log) (parcel : String → Option WebRequest)
    (recipients : List String) (turns : List Turn) (requests : List WebRequest)
    (report : DeliveryReport) : Prop where
  each : turns.map Turn.recipient = recipients
  rounds : Rounds web parcel [] log turns
  /-- Nothing goes out but at the turns. -/
  all : requests = turns.flatMap (Turn.requests parcel)
  lookups : requests.filter (fun q => !isPost q) = recipients.map Web.asking
  posts : requests.filter isPost = (turns.filterMap Turn.served?).filterMap parcel
  once : (turns.filterMap Turn.served?).Nodup
  served : ∀ t ∈ turns, ∀ inbox, t.inbox? = some inbox → inbox ∈ turns.filterMap Turn.served?
  /-- An inbox has its turn where it is first found. -/
  first : ∀ before r inbox taken after, turns = before ++ .sent r inbox taken :: after →
    ∀ t ∈ before, t.inbox? ≠ some inbox
  delivered : report.delivered = (web.exchanges log requests).countP isTakenPost
  failed : report.failed = (turns.filter Turn.isFailed).map Turn.recipient

/-- An activity goes to each inbox once. The inbox of each recipient but its sender and everyone is
looked for, in order, and gets the activity where it is first found. -/
theorem overWeb_posts_once (web : Web) (now : Instant) (log : Log) (recipients : List String)
    (named : a.actorId ≠ "") (provisioned : n.privateKey a.actorId = .ok pem) :
    (∀ inbox q, carrier? now pem a inbox = some q →
      q.method = "POST" ∧ q.url = inbox ∧ q.body = a.encode.render) ∧
    ∃ turns requests report,
      Delivers web log (carrier? now pem a) (others a recipients) turns requests report ∧
      Yields (overWeb web now n a recipients) log report (log ++ requests.map .requested) := by
  have carried (inbox : String) (q : WebRequest) (h : carrier? now pem a inbox = some q) :
      q.method = "POST" ∧ q.url = inbox ∧ q.body = a.encode.render :=
    parcel?_eq_some h
  have posts (inbox : String) (q : WebRequest) (h : carrier? now pem a inbox = some q) :
      q.method = "POST" :=
    (carried inbox q h).1
  obtain ⟨turns, each, rounds, yields⟩ := overWeb_rounds web now log recipients named provisioned
  refine ⟨carried, turns, _, _, ?_, yields⟩
  constructor
  case each => exact each
  case rounds => exact rounds
  case all => rfl
  case lookups =>
    rw [filter_not_isPost_requests posts, ← each, List.map_map]
    rfl
  case posts => exact filter_isPost_requests posts
  case once => exact rounds.served_nodup
  case served =>
    intro t ht inbox hi
    exact (rounds.mem_served ht hi).resolve_left (by simp)
  case first =>
    rintro before r inbox taken after rfl
    exact rounds.first
  case delivered => rw [rounds.countP_isTakenPost posts, tally, Nat.zero_add]
  case failed => exact List.nil_append _

section Specimen

def specimenActivity : Activity where
  type := "Like"
  actor := some (.bare "http://b")

def specimenNode (pem : String) : Node where
  board := { keys := ({} : Table KeyRecord).put ⟨"http://b#main-key", "http://b", "b-public.pem"⟩ }
  files := ({} : Files).put ⟨["b-private.pem"], .text pem⟩

theorem privateKey_specimenNode (pem : String) :
    (specimenNode pem).privateKey specimenActivity.actorId = .ok pem :=
  rfl

def specimenWeb (status : Nat) : Web := fun _ q =>
  if isPost q then .answered status ""
  else if q.url = "http://away" then .dropped
  else .answered 200 "\x7b\"inbox\":\"http://i\"\x7d"

def specimenRecipients : List String :=
  [everyone, "http://b", "http://u", "http://away", "http://v", "http://u"]

theorem overWeb_posts_once_specimen :
    let pem := RequestHead.specimenSigner.toPem
    ∃ turns requests report,
      Delivers (specimenWeb 202) [] (carrier? .epoch pem specimenActivity)
        ["http://u", "http://away", "http://v", "http://u"] turns requests report ∧
      Yields
        (overWeb (specimenWeb 202) .epoch (specimenNode pem) specimenActivity specimenRecipients) []
        report (requests.map .requested) :=
  (overWeb_posts_once (specimenWeb 202) .epoch [] specimenRecipients (a := specimenActivity)
    (n := specimenNode _) (by decide) (privateKey_specimenNode _)).2

end Specimen

end Delivery
end Imageboard
