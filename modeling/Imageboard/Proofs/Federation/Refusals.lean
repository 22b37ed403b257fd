import Imageboard.Proofs.Federation.Posting

namespace Imageboard

/-- The web answers each request the same way at all times. -/
def Web.Steady (web : Web) : Prop :=
  ∀ log log' q, web log q = web log' q

namespace Outward

variable {α β : Type}

def Steady (x : Outward α) : Prop :=
  ∀ log log', (x.run.run log).1 = (x.run.run log').1

theorem Steady.bind {x : Outward α} {f : α → Outward β} (hx : x.Steady)
    (hf : ∀ a, (f a).Steady) : (x >>= f).Steady := by
  intro log log'
  have same := hx log log'
  change (ExceptT.bindCont f (x.run.run log).1 (x.run.run log).2).1 =
    (ExceptT.bindCont f (x.run.run log').1 (x.run.run log').2).1
  rw [← same]
  cases (x.run.run log).1 with
  | error e => rfl
  | ok a => exact hf a _ _

theorem Steady.pure {a : α} : (Pure.pure a : Outward α).Steady :=
  fun _ _ => rfl

theorem Steady.throw {f : Fault} : (MonadExcept.throw f : Outward α).Steady :=
  fun _ _ => rfl

end Outward

namespace Delivery

variable {web : Web} {log : Log} {r r' inbox pem : String} {now : Instant}
  {parcel : String → Option WebRequest} {tried : List String} {t : Turn} {turns : List Turn}

theorem steady_resolveInbox (h : web.Steady) : (resolveInbox web r).Steady := by
  have sent (q : WebRequest) : (web.send q).Steady :=
    fun log log' => congrArg Except.ok (h log log' q)
  unfold resolveInbox Web.fetch
  refine .bind ?_ fun text => ?_
  · refine (sent _).bind fun reply => ?_
    cases reply with
    | dropped => exact .throw
    | answered status body =>
      dsimp only
      split
      · exact .throw
      · exact .pure
  · split
    · exact .throw
    · exact .pure
    · exact .pure
    · exact .throw

def inbox? (web : Web) (r : String) : Option String :=
  ((resolveInbox web r).run.run []).1.toOption

theorem finds_iff (h : web.Steady) : Finds web log r inbox ↔ inbox? web r = some inbox := by
  unfold Finds inbox?
  rw [steady_resolveInbox h log []]
  cases ((resolveInbox web r).run.run []).1 <;> simp [Except.toOption]

/-- The first of some recipients that an inbox belongs to. -/
def firstAt? (web : Web) (recipients : List String) (inbox : String) : Option String :=
  recipients.find? fun r => inbox? web r == some inbox

theorem inbox?_of_firstAt {recipients : List String} (h : firstAt? web recipients inbox = some r) :
    inbox? web r = some inbox := by
  have found := List.find?_some h
  simpa using found

theorem exists_firstAt {recipients : List String} (hr : r ∈ recipients)
    (hi : inbox? web r = some inbox) :
    ∃ r' ∈ recipients, firstAt? web recipients inbox = some r' := by
  have isSome : (firstAt? web recipients inbox).isSome := List.find?_isSome.2 ⟨r, hr, by simp [hi]⟩
  obtain ⟨r', h⟩ := Option.isSome_iff_exists.1 isSome
  exact ⟨r', List.mem_of_find?_eq_some h, h⟩

def Takes (web : Web) (now : Instant) (pem : String) (a : Activity) (inbox : String) : Prop :=
  ((post web now pem (Actor.mainKey a.actorId) inbox a.encode.render).run.run []).1 = .ok ()

theorem takes_iff {a : Activity} (h : web.Steady) (log : Log) :
    Takes web now pem a inbox ↔ isTaken web log (carrier? now pem a inbox) = true := by
  obtain ⟨result, hrun, hok⟩ :=
    sends_post web now pem (Actor.mainKey a.actorId) inbox a.encode.render []
  have same : isTaken web log (carrier? now pem a inbox) =
      isTaken web [] (carrier? now pem a inbox) := by
    unfold isTaken
    congr 1
    funext q
    rw [h log []]
  rw [Takes, hrun, same, carrier?, ← hok]
  cases result <;> simp [Except.isOk, Except.toBool]

namespace Rounds

theorem inbox?_eq (h : web.Steady) (rounds : Rounds web parcel tried log turns) (ht : t ∈ turns) :
    t.inbox? = inbox? web t.recipient := by
  have unfound {log : Log} {r : String} (hr : ∀ inbox, ¬ Finds web log r inbox) :
      inbox? web r = none :=
    Option.eq_none_iff_forall_ne_some.2 fun inbox hi => hr inbox ((finds_iff h).2 hi)
  induction rounds with
  | done => cases ht
  | lost hr _ ih =>
    rcases List.mem_cons.1 ht with rfl | ht
    · exact (unfound hr).symm
    · exact ih ht
  | shared found _ _ ih =>
    rcases List.mem_cons.1 ht with rfl | ht
    · exact ((finds_iff h).1 found).symm
    · exact ih ht
  | sent found _ _ _ ih =>
    rcases List.mem_cons.1 ht with rfl | ht
    · exact ((finds_iff h).1 found).symm
    · exact ih ht

theorem taken_eq {taken : Bool} (h : web.Steady) (rounds : Rounds web parcel tried log turns)
    (ht : .sent r inbox taken ∈ turns) : taken = isTaken web [] (parcel inbox) := by
  have steady (log : Log) (p : Option WebRequest) : isTaken web log p = isTaken web [] p := by
    unfold isTaken
    congr 1
    funext q
    rw [h log []]
  induction rounds with
  | done => cases ht
  | lost _ _ ih => exact ih ((List.mem_cons.1 ht).resolve_left nofun)
  | shared _ _ _ ih => exact ih ((List.mem_cons.1 ht).resolve_left nofun)
  | sent _ _ answer _ ih =>
    rcases List.mem_cons.1 ht with he | ht
    · cases he
      rw [answer, steady]
    · exact ih ht

theorem firstAt_of_sent {taken : Bool} (h : web.Steady) (rounds : Rounds web parcel tried log turns)
    (ht : .sent r inbox taken ∈ turns) :
    firstAt? web (turns.map Turn.recipient) inbox = some r := by
  obtain ⟨before, after, rfl⟩ := List.append_of_mem ht
  have here := rounds.inbox?_eq h ht
  refine List.find?_eq_some_iff_append.2 ⟨beq_iff_eq.2 here.symm,
    before.map Turn.recipient, after.map Turn.recipient, by simp [Turn.recipient], ?_⟩
  intro r' hr'
  obtain ⟨t, hmem, rfl⟩ := List.mem_map.1 hr'
  have elsewhere := rounds.first t hmem
  rw [rounds.inbox?_eq h (List.mem_append_left _ hmem)] at elsewhere
  simpa using elsewhere

theorem sent_of_firstAt (h : web.Steady) (rounds : Rounds web parcel [] log turns)
    (hr : firstAt? web (turns.map Turn.recipient) inbox = some r) :
    ∃ taken, .sent r inbox taken ∈ turns := by
  obtain ⟨t, ht, rfl⟩ := List.mem_map.1 (List.mem_of_find?_eq_some hr)
  have found : t.inbox? = some inbox :=
    (rounds.inbox?_eq h ht).trans (inbox?_of_firstAt hr)
  have served := (rounds.mem_served ht found).resolve_left List.not_mem_nil
  obtain ⟨t', ht', hserved⟩ := List.mem_filterMap.1 served
  cases t' with
  | lost _ => cases hserved
  | shared _ _ => cases hserved
  | sent r' inbox' taken =>
    cases hserved
    have first := rounds.firstAt_of_sent h ht'
    rw [hr] at first
    cases first
    exact ⟨taken, ht'⟩

/-- The recipients that fail are those without an inbox and, of those with an inbox that refuses,
the first. -/
theorem mem_failed_iff (h : web.Steady) (rounds : Rounds web parcel [] log turns) :
    r ∈ (turns.filter Turn.isFailed).map Turn.recipient ↔ r ∈ turns.map Turn.recipient ∧
      (inbox? web r = none ∨ ∃ inbox, isTaken web [] (parcel inbox) = false ∧
        firstAt? web (turns.map Turn.recipient) inbox = some r) := by
  constructor
  · intro hr
    obtain ⟨t, ht, rfl⟩ := List.mem_map.1 hr
    obtain ⟨ht, hfailed⟩ := List.mem_filter.1 ht
    refine ⟨List.mem_map_of_mem ht, ?_⟩
    cases t with
    | lost r => exact .inl (rounds.inbox?_eq h ht).symm
    | shared r inbox => cases hfailed
    | sent r inbox taken =>
      refine .inr ⟨inbox, ?_, rounds.firstAt_of_sent h ht⟩
      rw [← rounds.taken_eq h ht]
      simpa [Turn.isFailed] using hfailed
  · rintro ⟨hr, hnone | ⟨inbox, hrefused, hfirst⟩⟩
    · obtain ⟨t, ht, rfl⟩ := List.mem_map.1 hr
      refine List.mem_map_of_mem (List.mem_filter.2 ⟨ht, ?_⟩)
      have hlost := (rounds.inbox?_eq h ht).trans hnone
      cases t with
      | lost r => rfl
      | shared r inbox => cases hlost
      | sent r inbox taken => cases hlost
    · obtain ⟨taken, ht⟩ := rounds.sent_of_firstAt h hfirst
      refine List.mem_map.2 ⟨_, List.mem_filter.2 ⟨ht, ?_⟩, rfl⟩
      rw [Turn.isFailed, rounds.taken_eq h ht, hrefused]
      rfl

end Rounds

variable {a : Activity} {n : Node} {recipients : List String} {report : DeliveryReport}

/-- An activity does not come to a recipient: its inbox is not found, or says no. -/
def Fails (web : Web) (now : Instant) (pem : String) (a : Activity) (r : String) : Prop :=
  ∀ inbox, inbox? web r = some inbox → ¬ Takes web now pem a inbox

/-- On a steady web, a report names the recipients without an inbox and, of those that share an
inbox which refuses, the first. -/
theorem overWeb_failed (now : Instant) (log : Log) (recipients : List String)
    (h : web.Steady) (named : a.actorId ≠ "") (provisioned : n.privateKey a.actorId = .ok pem) :
    ∃ report log', Yields (overWeb web now n a recipients) log report log' ∧
      ∀ r, r ∈ report.failed ↔ r ∈ others a recipients ∧
        (inbox? web r = none ∨ ∃ inbox, ¬ Takes web now pem a inbox ∧
          firstAt? web (others a recipients) inbox = some r) := by
  obtain ⟨turns, each, rounds, yields⟩ := overWeb_rounds web now log recipients named provisioned
  refine ⟨_, _, yields, fun r => ?_⟩
  have hr := rounds.mem_failed_iff (r := r) h
  rw [each] at hr
  simpa [tally, takes_iff h []] using hr

/-- The report of a delivery on a steady web names all recipients that fail, and no others, just
when no two of them share an inbox which refuses. -/
theorem overWeb_reports_failed_iff (now : Instant) (log : Log) (recipients : List String)
    (h : web.Steady) (named : a.actorId ≠ "") (provisioned : n.privateKey a.actorId = .ok pem) :
    ∃ report log', Yields (overWeb web now n a recipients) log report log' ∧
      (∀ r, r ∈ report.failed ↔ r ∈ others a recipients ∧
        (inbox? web r = none ∨ ∃ inbox, ¬ Takes web now pem a inbox ∧
          firstAt? web (others a recipients) inbox = some r)) ∧
      ((∀ r, r ∈ report.failed ↔ r ∈ others a recipients ∧ Fails web now pem a r) ↔
        ∀ r ∈ others a recipients, ∀ r' ∈ others a recipients, ∀ inbox,
          inbox? web r = some inbox → inbox? web r' = some inbox →
            ¬ Takes web now pem a inbox → r = r') := by
  obtain ⟨report, log', yields, failed⟩ := overWeb_failed now log recipients h named provisioned
  refine ⟨report, log', yields, failed, ?_, ?_⟩
  · intro law r hr r' hr' inbox hi hi' refused
    have first (r : String) (hr : r ∈ others a recipients) (hi : inbox? web r = some inbox) :
        firstAt? web (others a recipients) inbox = some r := by
      have fails : Fails web now pem a r := fun inbox' hi' => by
        cases hi.symm.trans hi'
        exact refused
      rcases ((failed r).1 ((law r).2 ⟨hr, fails⟩)).2 with hnone | ⟨inbox', -, hfirst⟩
      · rw [hi] at hnone
        cases hnone
      · cases hi.symm.trans (inbox?_of_firstAt hfirst)
        exact hfirst
    exact Option.some.inj ((first r hr hi).symm.trans (first r' hr' hi'))
  · intro apart r
    rw [failed]
    refine and_congr_right fun hr => ⟨?_, ?_⟩
    · rintro (hnone | ⟨inbox, refused, hfirst⟩) inbox' hi
      · rw [hnone] at hi
        cases hi
      · cases (inbox?_of_firstAt hfirst).symm.trans hi
        exact refused
    · intro fails
      cases hi : inbox? web r with
      | none => exact .inl rfl
      | some inbox =>
        have refused := fails inbox hi
        obtain ⟨r', hr', hfirst⟩ := exists_firstAt hr hi
        have same := apart r hr r' hr' inbox hi (inbox?_of_firstAt hfirst) refused
        exact .inr ⟨inbox, refused, same ▸ hfirst⟩

section Specimen

open RequestHead (specimenSigner isSound_specimenSigner sign_succeeds)

def specimenDelivery : Outward DeliveryReport :=
  overWeb (specimenWeb 500) .epoch (specimenNode specimenSigner.toPem) specimenActivity
    specimenRecipients

theorem steady_specimenWeb (status : Nat) : (specimenWeb status).Steady :=
  fun _ _ _ => rfl

theorem inbox?_specimenWeb : inbox? (specimenWeb 500) "http://v" = some "http://i" := by
  decide +kernel

theorem firstAt?_specimenWeb : firstAt? (specimenWeb 500)
    (others specimenActivity specimenRecipients) "http://i" = some "http://u" := by
  decide +kernel

theorem carrier?_specimen :
    ∃ q, carrier? .epoch specimenSigner.toPem specimenActivity "http://i" = some q := by
  have hkeyId : IsKeyId "http://b#main-key" :=
    ⟨by decide, Text.forall_mem_of_all (by decide), by decide, by decide, by decide⟩
  have hpem : privateKeyOf specimenSigner.toPem = .ok specimenSigner := by
    rw [privateKeyOf, Rsa.PrivateKey.ofPem?_toPem isSound_specimenSigner (by decide +kernel)]
    rfl
  let uri : Uri := ⟨true, "i", "", by decide, by decide⟩
  have written : (((unsigned uri).complete (signedHeaders.map Text.lower)
      (Text.utf8 specimenActivity.encode.render) .epoch).bind fun c =>
      c.signingString (signedHeaders.map Text.lower)).isOk = true := by
    decide +kernel
  obtain ⟨text, written⟩ := exists_of_isOk written
  obtain ⟨completed, hcomplete, htext⟩ := except_bind_eq_ok.1 written
  obtain ⟨signed, hsigned⟩ := sign_succeeds hkeyId hcomplete htext hpem (by decide +kernel)
  have haddress : Uri.parse? "http://i" = some uri := rfl
  exact ⟨_, parcel?_of_sign haddress hsigned⟩

theorem not_takes_specimen :
    ¬ Takes (specimenWeb 500) .epoch specimenSigner.toPem specimenActivity "http://i" := by
  rw [takes_iff (steady_specimenWeb 500) []]
  obtain ⟨q, hq⟩ := carrier?_specimen
  have hpost : isPost q = true := beq_iff_eq.2 (parcel?_eq_some hq).1
  rw [hq, isTaken, Option.any_some, specimenWeb, if_pos hpost]
  decide

theorem overWeb_reports_failed_iff_specimen :
    ∃ report log', Yields specimenDelivery [] report log' ∧
      "http://away" ∈ report.failed ∧ "http://u" ∈ report.failed := by
  obtain ⟨report, log', yields, failed, -⟩ := overWeb_reports_failed_iff (a := specimenActivity)
    .epoch [] specimenRecipients (steady_specimenWeb 500) (by decide)
    (privateKey_specimenNode specimenSigner.toPem)
  refine ⟨report, log', yields, ?_, ?_⟩
  · exact (failed "http://away").2 ⟨by decide, .inl (by decide +kernel)⟩
  · exact (failed "http://u").2
      ⟨by decide, .inr ⟨"http://i", not_takes_specimen, firstAt?_specimenWeb⟩⟩

/-- The second of two recipients that share an inbox which refuses is not reported. -/
theorem not_reported_of_shared_inbox :
    ∃ report log', Yields specimenDelivery [] report log' ∧
      "http://v" ∈ others specimenActivity specimenRecipients ∧
      Fails (specimenWeb 500) .epoch specimenSigner.toPem specimenActivity "http://v" ∧
      "http://v" ∉ report.failed := by
  obtain ⟨report, log', yields, failed⟩ := overWeb_failed (a := specimenActivity)
    .epoch [] specimenRecipients (steady_specimenWeb 500) (by decide)
    (privateKey_specimenNode specimenSigner.toPem)
  refine ⟨report, log', yields, by decide, ?_, ?_⟩
  · intro inbox hi
    cases inbox?_specimenWeb.symm.trans hi
    exact not_takes_specimen
  · intro hv
    rcases ((failed "http://v").1 hv).2 with hnone | ⟨inbox, -, hfirst⟩
    · cases inbox?_specimenWeb.symm.trans hnone
    · cases inbox?_specimenWeb.symm.trans (inbox?_of_firstAt hfirst)
      have clash := firstAt?_specimenWeb.symm.trans hfirst
      exact absurd clash (by decide)

end Specimen

end Delivery
end Imageboard
