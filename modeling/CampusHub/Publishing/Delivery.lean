import CampusHub.Foundations.Outboxes
import CampusHub.Publishing.Receipts

/-!
# The delivery of posts to feeds

* `deliver`, `Worker`, `FeedWorld`, `FeedAct` — the publications, the feeds in Redis, what the callers
  deliver after their commit, and the workers that deliver what is pending.
* `FeedWorld.outbox` — the same as an outbox: what the committed posts owe to the followers.
* `Delivering` — what holds after every step; `Delivering.step` keeps it, and each step is one of the outbox.
* `feeds_complete` — the result: nothing is lost and nothing is invented.

**Theorem** (`feeds_complete`). Publications, deliveries after a commit and workers run in any order, and
Redis may carry out a delivery without an answer, answer with an exception, or do nothing. Then every
follower that the transaction of a committed post has read has the post in the feed, with the time of its
publication, or a delivery of it is pending; what a feed has comes from a call that succeeded; a call
without success leaves nothing; and what is in a feed stays there.

**Proof route.** `FeedWorld.outbox` reads the whole as an outbox of `Foundations.Outboxes`: due is what
committed posts owe, the intents are the rows of deliveries, and the store are the feeds. `Delivering.step`
shows that each step of the model is a step of that outbox, so that its invariant is the theorem. A worker
removes a row only after Redis has confirmed it, and then the member is there (`deliver_cases`).

**Left out.** That a worker comes: with no worker a delivery stays pending for ever.
-/

namespace CampusHub.Publishing

open CampusHub.Content CampusHub.Domain CampusHub.Foundations CampusHub.Foundations.Maps
  CampusHub.Foundations.Transactions

/-! ## Feeds -/

/-- The feeds in Redis: the scores of the posts, by reader. -/
abbrev Feeds := ℕ → ℕ → Option ℕ

/-- `ZADD`: the member gets the score, whether it is there or not. -/
def zadd (feeds : Feeds) (entry : BlogFeedDelivery) : Feeds :=
  Function.update feeds entry.recipientUserId
    (Function.update (feeds entry.recipientUserId) entry.blogId (some entry.scoreMillis))

/-- What comes back from Redis: `true` or `false`, nothing, or an exception of the class. Without an answer
the command may have been carried out or not. -/
inductive Reply where
  | confirmed
  | unconfirmed (applied : Bool)
  | raised (applied : Bool) (errorClass : String)

/-- Source: `BlogFeedDeliveryService.java` 113–117. -/
def safeErrorClass (name : String) : String :=
  let name := if name.toList = [] then "RuntimeException" else name
  if name.length ≤ 64 then name else String.ofList (name.toList.take 64)

/-- The feeds after a delivery, and the class of the exception if there is one. Source:
`BlogFeedDeliveryService.java` 99–109. -/
def deliver (entry : BlogFeedDelivery) (reply : Reply) (feeds : Feeds) : Feeds × Except String Unit :=
  if entry.blogId = 0 ∨ entry.recipientUserId = 0 ∨ validScore entry.scoreMillis = false then
    (feeds, .error (safeErrorClass "IllegalStateException"))
  else match reply with
    | .confirmed => (zadd feeds entry, .ok ())
    | .unconfirmed applied =>
      (if applied then zadd feeds entry else feeds, .error (safeErrorClass "IllegalStateException"))
    | .raised applied errorClass =>
      (if applied then zadd feeds entry else feeds, .error (safeErrorClass errorClass))

/-! ## Workers -/

/-- What a worker does next with the first entry of its batch. -/
inductive Duty where
  | deliver
  | complete
  | failed (reason : String)

/-- A run of `recoverPending`: what is left of the entries that it has read. -/
structure Worker where
  batch : List BlogFeedDelivery
  stage : Duty

/-- The publications, the feeds, what each call has still to deliver after its commit, and the workers. -/
structure FeedWorld where
  db : PublishingWorld
  feeds : Feeds
  fast : ℕ → List BlogFeedDelivery
  workers : List Worker

/-- What can happen. -/
inductive FeedAct where
  /-- A step of the publications. -/
  | publish (a : Act Call)
  /-- The next delivery of a call after its commit. -/
  | fast (i : ℕ) (reply : Reply)
  /-- The process of a call dies after its commit. -/
  | cut (i : ℕ)
  /-- A worker reads what is pending. -/
  | poll (utc : ℕ)
  /-- The next delivery of a worker. -/
  | work (k : ℕ) (reply : Reply)
  /-- The statement of a worker after a delivery. Whether it fails or not, the next entry is next. -/
  | settle (k : ℕ) (applied : Bool) (utc : ℕ)
  /-- A worker dies. -/
  | stop (k : ℕ)

namespace FeedWorld

def initial (s : Tables) : FeedWorld := ⟨World.initial s (), fun _ _ => none, fun _ => [], []⟩

variable (sha256 : List UInt8 → List UInt8) (w : FeedWorld)

/-- What the calls have to deliver after a step of the publications: a call that commits, its first
deliveries. Source: `BlogFeedDeliveryService.java` 24 and 59–69. -/
def afterCommit (db : PublishingWorld) : ℕ → List BlogFeedDelivery := fun i =>
  match w.db.results i, db.results i with
  | none, some (.ok p) => p.deliveries.take 32
  | _, _ => w.fast i

/-- The statement of a worker. It waits while a transaction holds the row. Source:
`BlogFeedDeliveryService.java` 85–97. -/
def settle (entry : BlogFeedDelivery) (stage : Duty) (utc : ℕ) : Tables :=
  match stage with
  | .deliver => w.db.tables
  | .complete =>
    (w.db.tables.completeDelivery entry.blogId entry.recipientUserId entry.scoreMillis).1
  | .failed reason =>
    (w.db.tables.failed utc entry.blogId entry.recipientUserId entry.scoreMillis reason).1

/-- The next state; an action of a worker that is at another stage changes nothing. Source:
`BlogFeedDeliveryService.java` 59–109. -/
def step : FeedAct → FeedWorld
  | .publish a =>
    { w with db := w.db.step (publishingSystem sha256) a
             fast := w.afterCommit (w.db.step (publishingSystem sha256) a) }
  | .fast i reply =>
    match w.fast i with
    | entry :: rest =>
      { w with feeds := (deliver entry reply w.feeds).1, fast := Function.update w.fast i rest }
    | [] => w
  | .cut i => { w with fast := Function.update w.fast i [] }
  | .poll utc => { w with workers := w.workers ++ [⟨w.db.tables.pending utc, .deliver⟩] }
  | .work k reply =>
    match w.workers[k]? with
    | some ⟨entry :: rest, .deliver⟩ =>
      let (feeds, outcome) := deliver entry reply w.feeds
      let stage := match outcome with
        | .ok () => Duty.complete
        | .error reason => Duty.failed reason
      { w with feeds := feeds, workers := w.workers.set k ⟨entry :: rest, stage⟩ }
    | _ => w
  | .settle k applied utc =>
    match w.workers[k]? with
    | some ⟨_, .deliver⟩ => w
    | some ⟨entry :: rest, stage⟩ =>
      if w.db.blocked w.db.calls.length (.delivery entry.blogId entry.recipientUserId) then w
      else
        { w with db := { w.db with tables := if applied then w.settle entry stage utc else w.db.tables }
                 workers := w.workers.set k ⟨rest, .deliver⟩ }
    | _ => w
  | .stop k => { w with workers := w.workers.set k ⟨[], .deliver⟩ }

end FeedWorld

/-! ## The outbox -/

/-- A committed post owes a follower its score: the follower was read by its transaction. -/
def Due (db : PublishingWorld) (key : ℕ × ℕ) (score : ℕ) : Prop :=
  ∃ (i : ℕ) (c : Call), db.calls[i]? = some c ∧ key.1 = c.env.id ∧
    (db.tables.blogs.lookup c.env.id).isSome ∧ some (key.2 : ℤ) ∈ c.env.followers ∧ (score : ℤ) = c.env.now

/-- **What the posts owe, what is pending and what the feeds have**, by post and follower. -/
def FeedWorld.outbox (w : FeedWorld) : Outbox (ℕ × ℕ) ℕ where
  due := Due w.db
  intents key := (w.db.tables.deliveries.lookup key).map fun row => row.scoreMillis
  delivered key := w.feeds key.2 key.1

def BlogFeedDelivery.key (entry : BlogFeedDelivery) : ℕ × ℕ := (entry.blogId, entry.recipientUserId)

/-- A delivery is of a post that owes it. -/
def Owed (s : Outbox (ℕ × ℕ) ℕ) (entry : BlogFeedDelivery) : Prop := s.due entry.key entry.scoreMillis

/-- A worker has entries that are owed, and removes one that the feed has. -/
structure Worker.Trusted (s : Outbox (ℕ × ℕ) ℕ) (k : Worker) : Prop where
  owed : ∀ entry ∈ k.batch, Owed s entry
  confirmed : k.stage = .complete → ∀ entry ∈ k.batch.head?, s.delivered entry.key = some entry.scoreMillis

/-- A call that has published has succeeded with its own post, and all its followers have ids. -/
structure Published (db : PublishingWorld) (i : ℕ) (c : Call) : Prop where
  returned : ∃ p, db.results i = some (.ok p) ∧ p.blogId = c.env.id
  readers : ∀ follower ∈ c.env.followers, ∃ r : ℕ, follower = some (r : ℤ)
  scored : 0 < c.env.now

/-- **What holds after every step.** -/
structure Delivering (sha256 : List UInt8 → List UInt8) (w : FeedWorld) : Prop where
  upheld : Upheld publishingRegions Sane (Checked sha256) (Settles sha256) (fun _ => True) w.db
  published : ∀ (i : ℕ) (c : Call), w.db.calls[i]? = some c →
    (w.db.tables.blogs.lookup c.env.id).isSome → Published w.db i c
  sound : w.outbox.Sound
  fast : ∀ i, ∀ entry ∈ w.fast i, Owed w.outbox entry
  workers : ∀ k ∈ w.workers, k.Trusted w.outbox

section lemmas

variable {s s' : Outbox (ℕ × ℕ) ℕ} {k : Worker} {entry : BlogFeedDelivery}

/-- What is owed stays so. -/
theorem Owed.step (h : Owed s entry) (hstep : Outbox.Step s s') : Owed s' entry := Outbox.Step.due hstep h

/-- A worker is right as long as the outbox takes steps. -/
theorem Worker.Trusted.step (h : k.Trusted s) (hs : s.Sound) (hstep : Outbox.Step s s') : k.Trusted s' where
  owed entry hentry := (h.owed entry hentry).step hstep
  confirmed hstage entry hentry := hs.delivered_step hstep (h.confirmed hstage entry hentry)

/-- A worker that has no statement to run. -/
theorem Worker.trusted_of (howed : ∀ entry ∈ k.batch, Owed s entry) (hstage : k.stage ≠ .complete) :
    k.Trusted s := ⟨howed, fun h => absurd h hstage⟩

/-- A delivery writes under one key. -/
theorem zadd_key (feeds : Feeds) (key : ℕ × ℕ) : zadd feeds entry key.2 key.1 =
    Function.update (fun key : ℕ × ℕ => feeds key.2 key.1) entry.key (some entry.scoreMillis) key := by
  obtain ⟨b, r⟩ := key
  unfold zadd BlogFeedDelivery.key
  by_cases hr : r = entry.recipientUserId
  · subst hr
    by_cases hb : b = entry.blogId
    · subst hb
      simp only [Function.update_self]
    · rw [Function.update_self, Function.update_of_ne hb, Function.update_of_ne]
      exact fun h => hb (Prod.mk.inj h).1
  · rw [Function.update_of_ne hr, Function.update_of_ne]
    exact fun h => hr (Prod.mk.inj h).2

/-- **What a delivery can do.** -/
theorem deliver_cases (entry : BlogFeedDelivery) (reply : Reply) (feeds : Feeds) :
    (deliver entry reply feeds).1 = zadd feeds entry ∨
    (deliver entry reply feeds).1 = feeds ∧ ∃ reason, (deliver entry reply feeds).2 = .error reason := by
  unfold deliver
  split
  · exact .inr ⟨rfl, _, rfl⟩
  · cases reply with
    | confirmed => exact .inl rfl
    | unconfirmed applied =>
      cases applied with
      | true => exact .inl rfl
      | false => exact .inr ⟨rfl, _, rfl⟩
    | raised applied errorClass =>
      cases applied with
      | true => exact .inl rfl
      | false => exact .inr ⟨rfl, _, rfl⟩

/-- A delivery of what is owed is a step of the outbox. -/
theorem outbox_deliver {w w' : FeedWorld} {reply : Reply} (howed : Owed w.outbox entry)
    (hdb : w'.db = w.db) (hfeeds : w'.feeds = (deliver entry reply w.feeds).1) : Outbox.Step w.outbox w'.outbox := by
  have hdue : ∀ k v, w'.outbox.due k v ↔ w.outbox.due k v := fun k v => by
    show Due w'.db k v ↔ Due w.db k v
    rw [hdb]
  have hintents : w'.outbox.intents = w.outbox.intents := by
    unfold FeedWorld.outbox
    rw [hdb]
  rcases deliver_cases entry reply w.feeds with hsent | ⟨hsame, -⟩
  · refine .deliver howed hdue hintents ?_
    funext key
    show w'.feeds key.2 key.1 = _
    rw [hfeeds, hsent]
    exact zadd_key w.feeds key
  · refine .idle hdue hintents ?_
    funext key
    show w'.feeds key.2 key.1 = w.feeds key.2 key.1
    rw [hfeeds, hsame]

end lemmas

/-! ## Statements of the workers -/

section settle

variable {sha256 : List UInt8 → List UInt8} (w : FeedWorld) (entry : BlogFeedDelivery) (duty : Duty) (utc : ℕ)

/-- A statement of a worker leaves receipts and posts alone, and adds no delivery. -/
theorem settle_frame : (w.settle entry duty utc).requests = w.db.tables.requests ∧
    (w.settle entry duty utc).blogs = w.db.tables.blogs ∧
    ∀ key, w.db.tables.deliveries.lookup key = none → (w.settle entry duty utc).deliveries.lookup key = none := by
  cases duty with
  | deliver => exact ⟨rfl, rfl, fun _ h => h⟩
  | complete =>
    refine ⟨rfl, rfl, fun key hnone => ?_⟩
    simp only [FeedWorld.settle, Tables.completeDelivery]
    rcases Tables.deleteWhere_cases w.db.tables.deliveries (entry.blogId, entry.recipientUserId)
      fun row => row.scoreMillis = entry.scoreMillis with ⟨row, -, -, hu⟩ | ⟨-, hu⟩
    · rw [hu, lookup_erase_eq, hnone, ite_self]
    · rw [hu, hnone]
  | failed reason =>
    refine ⟨rfl, rfl, fun key hnone => ?_⟩
    simp only [FeedWorld.settle, Tables.failed]
    rcases Tables.updateWhere_cases w.db.tables.deliveries (entry.blogId, entry.recipientUserId)
      (fun row => row.scoreMillis = entry.scoreMillis) _ with ⟨row, hrow, -, hu⟩ | ⟨-, hu⟩
    · rw [hu, lookup_insert_eq, if_neg, hnone]
      rintro rfl
      rw [hnone] at hrow
      cases hrow
    · rw [hu, hnone]

/-- The intents after a statement of a worker: the completion takes one away. -/
theorem settle_intents :
    (fun key => ((w.settle entry duty utc).deliveries.lookup key).map fun row => row.scoreMillis) =
      w.outbox.intents ∨
    duty = .complete ∧
      (fun key => ((w.settle entry duty utc).deliveries.lookup key).map fun row => row.scoreMillis) =
        Function.update w.outbox.intents entry.key none := by
  cases duty with
  | deliver => exact .inl rfl
  | complete =>
    simp only [FeedWorld.settle, Tables.completeDelivery]
    rcases Tables.deleteWhere_cases w.db.tables.deliveries (entry.blogId, entry.recipientUserId)
      fun row => row.scoreMillis = entry.scoreMillis with ⟨row, -, -, hu⟩ | ⟨-, hu⟩
    · refine .inr ⟨trivial, funext fun key => ?_⟩
      show _ = Function.update w.outbox.intents (entry.blogId, entry.recipientUserId) none key
      rw [hu, lookup_erase_eq]
      split
      · rename_i hkey
        rw [hkey, Function.update_self]
        rfl
      · rename_i hkey
        rw [Function.update_of_ne hkey]
        rfl
    · rw [hu]
      exact .inl rfl
  | failed reason =>
    refine .inl (funext fun key => ?_)
    simp only [FeedWorld.settle, Tables.failed]
    rcases Tables.updateWhere_cases w.db.tables.deliveries (entry.blogId, entry.recipientUserId)
      (fun row => row.scoreMillis = entry.scoreMillis) _ with ⟨row, hrow, -, hu⟩ | ⟨-, hu⟩
    · rw [hu, lookup_insert_eq]
      split
      · rename_i hkey
        subst hkey
        show _ = (w.db.tables.deliveries.lookup _).map _
        rw [hrow]
        rfl
      · rfl
    · rw [hu]
      rfl

/-- The publications go on when only deliveries change, and none is added. -/
theorem upheld_outside {db : PublishingWorld} {failed : ℕ → Prop} {t : Tables}
    (h : Upheld publishingRegions Sane (Checked sha256) (Settles sha256) failed db)
    (hrequests : t.requests = db.tables.requests) (hblogs : t.blogs = db.tables.blogs)
    (hdeliveries : ∀ key, db.tables.deliveries.lookup key = none → t.deliveries.lookup key = none) :
    Upheld publishingRegions Sane (Checked sha256) (Settles sha256) failed { db with tables := t } := by
  have hevolves : Evolves db.tables t :=
    ⟨fun key row hrow => by rw [hrequests, hrow], fun b row hrow => by rw [hblogs, hrow]⟩
  have hsane : Sane t := by
    refine ⟨fun key row hrow => ?_, fun b r hnone => hdeliveries _ ?_⟩
    · rw [hrequests] at hrow
      exact h.tables.complete key row hrow
    · rw [hblogs] at hnone
      exact h.tables.attached b r hnone
  refine h.outside hsane (fun c r => (publishing_guarantee sha256).stable hevolves)
    fun i task c _ _ hready => ⟨hevolves, ⟨hready.positive, ?_, hsane⟩, fun key _ => ?_⟩
  · rw [hblogs]
    exact hready.fresh
  · show t.requests.lookup key = db.tables.requests.lookup key
    rw [hrequests]

end settle

/-! ## Steps -/

section steps

variable {sha256 : List UInt8 → List UInt8} {w w' : FeedWorld}

/-- What is kept when the outbox takes a step. -/
theorem Delivering.of (h : Delivering sha256 w) (hstep : Outbox.Step w.outbox w'.outbox)
    (hupheld : Upheld publishingRegions Sane (Checked sha256) (Settles sha256) (fun _ => True) w'.db)
    (hpublished : ∀ (i : ℕ) (c : Call), w'.db.calls[i]? = some c →
      (w'.db.tables.blogs.lookup c.env.id).isSome → Published w'.db i c)
    (hfast : ∀ i, ∀ entry ∈ w'.fast i, entry ∈ w.fast i ∨ Owed w'.outbox entry)
    (hworkers : ∀ k ∈ w'.workers, k ∈ w.workers ∨ k.Trusted w'.outbox) : Delivering sha256 w' where
  upheld := hupheld
  published := hpublished
  sound := h.sound.step hstep
  fast i entry hentry := by
    rcases hfast i entry hentry with hold | howed
    · exact (h.fast i entry hold).step hstep
    · exact howed
  workers k hk := by
    rcases hworkers k hk with hold | htrusted
    · exact (h.workers k hold).step h.sound hstep
    · exact htrusted

/-- What a call has still to deliver after its commit. -/
theorem Delivering.fastStep (h : Delivering sha256 w) (i : ℕ) (reply : Reply) :
    Outbox.Step w.outbox (w.step sha256 (.fast i reply)).outbox ∧
      Delivering sha256 (w.step sha256 (.fast i reply)) := by
  simp only [FeedWorld.step]
  split
  · rename_i entry rest hfast
    have howed : Owed w.outbox entry := h.fast i entry (hfast ▸ List.mem_cons_self)
    have hstep : Outbox.Step w.outbox ({ w with
        feeds := (deliver entry reply w.feeds).1
        fast := Function.update w.fast i rest } : FeedWorld).outbox := outbox_deliver howed rfl rfl
    refine ⟨hstep, h.of hstep h.upheld h.published (fun j entry' hentry' => .inl ?_) fun k hk => .inl hk⟩
    have hentry : entry' ∈ Function.update w.fast i rest j := hentry'
    by_cases hji : j = i
    · subst hji
      rw [Function.update_self] at hentry
      rw [hfast]
      exact List.mem_cons_of_mem entry hentry
    · rwa [Function.update_of_ne hji] at hentry
  · exact ⟨.idle (fun _ _ => Iff.rfl) rfl rfl, h⟩

/-- The delivery of a worker. -/
theorem Delivering.workStep (h : Delivering sha256 w) (k : ℕ) (reply : Reply) :
    Outbox.Step w.outbox (w.step sha256 (.work k reply)).outbox ∧
      Delivering sha256 (w.step sha256 (.work k reply)) := by
  simp only [FeedWorld.step]
  split
  · rename_i entry rest hk
    have htrusted := h.workers _ (List.mem_of_getElem? hk)
    have howed : Owed w.outbox entry := htrusted.owed entry List.mem_cons_self
    generalize hduty : (match (deliver entry reply w.feeds).2 with
      | .ok () => Duty.complete
      | .error reason => Duty.failed reason) = duty
    have hstep : Outbox.Step w.outbox ({ w with
        feeds := (deliver entry reply w.feeds).1
        workers := w.workers.set k ⟨entry :: rest, duty⟩ } : FeedWorld).outbox := outbox_deliver howed rfl rfl
    refine ⟨hstep, h.of hstep h.upheld h.published (fun i _ hentry => .inl hentry) fun u hu => ?_⟩
    rcases List.mem_or_eq_of_mem_set hu with hold | rfl
    · exact .inl hold
    · refine .inr ⟨fun entry' hentry' => (htrusted.owed entry' hentry').step hstep, ?_⟩
      rintro hcomplete entry' hentry'
      obtain rfl := Option.some.inj hentry'
      -- the reply was an answer, so the feed has the post
      rcases deliver_cases entry reply w.feeds with hsent | ⟨-, reason, hreason⟩
      · show (deliver entry reply w.feeds).1 entry.key.2 entry.key.1 = some entry.scoreMillis
        rw [hsent, zadd_key, Function.update_self]
      · rw [hreason] at hduty
        cases hduty.trans hcomplete
  · exact ⟨.idle (fun _ _ => Iff.rfl) rfl rfl, h⟩

/-- What is due depends on the posts and on the calls. -/
theorem due_of_blogs {db : PublishingWorld} {t : Tables} (hblogs : t.blogs = db.tables.blogs)
    (key : ℕ × ℕ) (score : ℕ) : Due { db with tables := t } key score ↔ Due db key score := by
  unfold Due
  simp only [hblogs]

/-- The statement of a worker. -/
theorem Delivering.settleStep (h : Delivering sha256 w) (k : ℕ) (applied : Bool) (utc : ℕ) :
    Outbox.Step w.outbox (w.step sha256 (.settle k applied utc)).outbox ∧
      Delivering sha256 (w.step sha256 (.settle k applied utc)) := by
  have hidle : Outbox.Step w.outbox w.outbox := .idle (fun _ _ => Iff.rfl) rfl rfl
  simp only [FeedWorld.step]
  split
  · exact ⟨hidle, h⟩
  · rename_i entry rest duty hduty hk
    split
    · exact ⟨hidle, h⟩
    have htrusted := h.workers _ (List.mem_of_getElem? hk)
    obtain ⟨hrequests, hblogs, hdeliveries⟩ := settle_frame w entry duty utc
    have hworkers : ∀ {s : Outbox (ℕ × ℕ) ℕ}, Outbox.Step w.outbox s →
        ∀ u ∈ w.workers.set k ⟨rest, .deliver⟩, u ∈ w.workers ∨ u.Trusted s := by
      intro s hstep u hu
      rcases List.mem_or_eq_of_mem_set hu with hold | rfl
      · exact .inl hold
      · refine .inr (Worker.trusted_of (fun entry' hentry' => ?_) fun h => by cases h)
        exact (htrusted.owed entry' (List.mem_cons_of_mem entry hentry')).step hstep
    cases applied with
    | false =>
      exact ⟨hidle, h.of hidle h.upheld h.published (fun i _ hentry => .inl hentry) (hworkers hidle)⟩
    | true =>
      have hdue := @due_of_blogs w.db _ hblogs
      have hstep : Outbox.Step w.outbox ({ w with
          db := { w.db with tables := w.settle entry duty utc }
          workers := w.workers.set k ⟨rest, .deliver⟩ } : FeedWorld).outbox := by
        rcases settle_intents w entry duty utc with hsame | ⟨rfl, hgone⟩
        · exact .idle hdue hsame rfl
        · exact .settle (htrusted.confirmed rfl entry rfl) hdue hgone rfl
      refine ⟨hstep, h.of hstep (upheld_outside h.upheld hrequests hblogs hdeliveries) (fun i c hi hblog => ?_)
        (fun i _ hentry => .inl hentry) (hworkers hstep)⟩
      have hblog' : (w.db.tables.blogs.lookup c.env.id).isSome := hblogs ▸ hblog
      obtain ⟨hreturned, hreaders, hscored⟩ := h.published i c hi hblog'
      exact ⟨hreturned, hreaders, hscored⟩
  · exact ⟨hidle, h⟩

/-- The recipients are the followers, as numbers. -/
theorem readers_of_mapM {followers : List (Option ℤ)} {recipients : List ℕ}
    (h : followers.mapM positive = some recipients) : followers = recipients.map fun r : ℕ => some (r : ℤ) := by
  induction followers generalizing recipients with
  | nil =>
    obtain rfl := Option.some.inj h
    rfl
  | cons follower followers ih =>
    rw [List.mapM_cons] at h
    simp only [Option.bind_eq_bind, Option.bind_eq_some_iff, Option.pure_def, Option.some.injEq] at h
    obtain ⟨r, hr, recipients', hrest, rfl⟩ := h
    rw [ih hrest, (exists_of_positive hr).2, List.map_cons]

/-- The recipients are the followers that were read. -/
theorem Draft.mem_recipients {c : Call} (d : Draft c) {r : ℕ} :
    r ∈ d.recipients ↔ some (r : ℤ) ∈ c.env.followers := by
  rw [readers_of_mapM d.readers]
  constructor
  · exact List.mem_map_of_mem
  · intro h
    obtain ⟨r', hr', heq⟩ := List.mem_map.mp h
    have hcast : (r' : ℤ) = r := Option.some.inj heq
    obtain rfl := Int.ofNat.inj hcast
    exact hr'

/-- The time of a draft that is stored is positive. -/
theorem Draft.scored_pos {c : Call} (d : Draft c) : 0 < c.env.now := by
  have hscored := d.scored
  unfold validScore at hscored
  exact (of_decide_eq_true hscored).1

/-- A call that succeeds has written its draft, or nothing. -/
theorem Ends.effect {c : Call} {f : Tables → Tables} {held : List Row} {s : Tables} {p : Publication}
    (h : Ends sha256 c f held s p) :
    (∃ d : Draft c, p = d.publication ∧ f s = d.write sha256 s) ∨ p.deliveries = [] ∧ f s = s := by
  cases h with
  | saved d hcall hwrite => exact .inl ⟨d, rfl, hwrite⟩
  | created d hreceipt hheld hfree hwrite => exact .inl ⟨d, rfl, hwrite⟩
  | replayed hreceipt hrow hwrite => exact .inr ⟨rfl, hwrite⟩

/-- What a draft owes. -/
def Draft.news {c : Call} (d : Draft c) (key : ℕ × ℕ) : Option ℕ :=
  if key.1 = c.env.id ∧ key.2 ∈ d.recipients then some c.env.now.toNat else none

/-- The debts after a call has written its draft. -/
theorem due_write {db : PublishingWorld} {i : ℕ} {c : Call} (d : Draft c) {r : Except Failure Publication}
    (hi : db.calls[i]? = some c) (hapart : ∀ j c', db.calls[j]? = some c' → j ≠ i → c'.env.id ≠ c.env.id)
    (key : ℕ × ℕ) (score : ℕ) :
    Due { db.finish i r with tables := d.write sha256 db.tables } key score ↔
      Due db key score ∨ d.news key = some score := by
  have hblogs : ∀ b, (d.write sha256 db.tables).blogs.lookup b =
      if b = c.env.id then some d.row else db.tables.blogs.lookup b := write_blogs
  constructor
  · rintro ⟨j, c', hj, hkey, hblog, hfollower, hscore⟩
    by_cases hji : j = i
    · subst hji
      obtain rfl := Option.some.inj (hi.symm.trans hj)
      refine .inr ?_
      unfold Draft.news
      rw [if_pos ⟨hkey, d.mem_recipients.mpr hfollower⟩, ← hscore, Int.toNat_natCast]
    · refine .inl ⟨j, c', hj, hkey, ?_, hfollower, hscore⟩
      have hblog' : ((d.write sha256 db.tables).blogs.lookup c'.env.id).isSome := hblog
      rwa [hblogs, if_neg (hapart j c' hj hji)] at hblog'
  · rintro (⟨j, c', hj, hkey, hblog, hfollower, hscore⟩ | hnews)
    · refine ⟨j, c', hj, hkey, ?_, hfollower, hscore⟩
      show ((d.write sha256 db.tables).blogs.lookup c'.env.id).isSome
      rw [hblogs]
      split
      · rfl
      · exact hblog
    · unfold Draft.news at hnews
      split at hnews
      · rename_i hmem
        refine ⟨i, c, hi, hmem.1, ?_, d.mem_recipients.mp hmem.2, ?_⟩
        · show ((d.write sha256 db.tables).blogs.lookup c.env.id).isSome
          rw [hblogs, if_pos rfl]
          rfl
        · rw [← Option.some.inj hnews]
          exact Int.toNat_of_nonneg d.scored_pos.le
      · cases hnews

/-- What has still to be delivered after a step: what was, or the deliveries of a call that commits. -/
theorem mem_afterCommit {db : PublishingWorld} {i : ℕ} {entry : BlogFeedDelivery}
    (h : entry ∈ w.afterCommit db i) :
    entry ∈ w.fast i ∨ ∃ p, w.db.results i = none ∧ db.results i = some (.ok p) ∧ entry ∈ p.deliveries := by
  unfold FeedWorld.afterCommit at h
  split at h
  · rename_i p hnone hp
    exact .inr ⟨p, hnone, hp, List.mem_of_mem_take h⟩
  · exact .inl h

/-- The entries that a call delivers after its commit are those it owes. -/
theorem Draft.news_of_mem {c : Call} (d : Draft c) {entry : BlogFeedDelivery}
    (h : entry ∈ d.publication.deliveries) : d.news entry.key = some entry.scoreMillis := by
  obtain ⟨r, hr, rfl⟩ := List.mem_map.mp h
  exact if_pos ⟨rfl, mem_distinct.mp hr⟩

/-- A call commits what it has written. -/
theorem Delivering.writeStep (h : Delivering sha256 w) {i : ℕ} {c : Call} (d : Draft c)
    (hc : w.db.calls[i]? = some c) (hready : Ready c w.db.tables) {db : PublishingWorld}
    (hdb : db = { w.db.finish i (.ok d.publication) with tables := d.write sha256 w.db.tables })
    (hupheld : Upheld publishingRegions Sane (Checked sha256) (Settles sha256) (fun _ => True) db) :
    Outbox.Step w.outbox ({ w with db := db, fast := w.afterCommit db } : FeedWorld).outbox ∧
      Delivering sha256 { w with db := db, fast := w.afterCommit db } := by
  subst hdb
  have hapart : ∀ j c', w.db.calls[j]? = some c' → j ≠ i → c'.env.id ≠ c.env.id :=
    fun j c' hj hji => h.upheld.apart j i c' c hj hc hji
  have hdue := @due_write sha256 w.db i c d (.ok d.publication) hc hapart
  have hstep : Outbox.Step w.outbox ({ w with
      db := { w.db.finish i (.ok d.publication) with tables := d.write sha256 w.db.tables }
      fast := w.afterCommit { w.db.finish i (.ok d.publication) with tables := d.write sha256 w.db.tables } } :
        FeedWorld).outbox := by
    refine .publish d.news (fun key score hnews score' hold => ?_) hdue (fun key => ?_) rfl
    · -- the post is new, so nothing is owed for it
      obtain ⟨j, c', -, hkey, hblog, -⟩ := hold
      unfold Draft.news at hnews
      split at hnews
      · rename_i hmem
        rw [← hkey, hmem.1, hready.fresh] at hblog
        cases hblog
      · cases hnews
    · obtain ⟨b, r⟩ := key
      show ((d.write sha256 w.db.tables).deliveries.lookup (b, r)).map _ = _
      rw [write_deliveries]
      unfold Draft.news
      split <;> rfl
  refine ⟨hstep, h.of hstep hupheld (fun j c' hj hblog => ?_) (fun j entry hentry => ?_) fun k hk => .inl hk⟩
  · by_cases hji : j = i
    · subst hji
      obtain rfl := Option.some.inj (hc.symm.trans hj)
      refine ⟨⟨d.publication, Function.update_self .., rfl⟩, fun follower hfollower => ?_, d.scored_pos⟩
      rw [readers_of_mapM d.readers] at hfollower
      obtain ⟨r, -, hr⟩ := List.mem_map.mp hfollower
      exact ⟨r, hr.symm⟩
    · have hblog' : ((d.write sha256 w.db.tables).blogs.lookup c'.env.id).isSome := hblog
      rw [write_blogs, if_neg (hapart j c' hj hji)] at hblog'
      obtain ⟨⟨p, hp, hid⟩, hreaders, hscored⟩ := h.published j c' hj hblog'
      exact ⟨⟨p, (Function.update_of_ne hji ..).trans hp, hid⟩, hreaders, hscored⟩
  · rcases mem_afterCommit hentry with hold | ⟨p, hnone, hp, hmem⟩
    · exact .inl hold
    · refine .inr ((hdue _ _).mpr (.inr ?_))
      have hp' : Function.update w.db.results i (some (.ok d.publication)) j = some (.ok p) := hp
      rcases entry_of_update hp' with ⟨-, hsame⟩ | ⟨-, hbefore⟩
      · obtain rfl := Except.ok.inj hsame
        exact d.news_of_mem hmem
      · rw [hnone] at hbefore
        cases hbefore

/-- No call publishes. -/
theorem Delivering.quietStep (h : Delivering sha256 w) {db : PublishingWorld}
    (htables : db.tables = w.db.tables)
    (hcalls : ∀ (j : ℕ) (c : Call), w.db.calls[j]? = some c → db.calls[j]? = some c)
    (hold : ∀ (j : ℕ) (c : Call), db.calls[j]? = some c → (w.db.tables.blogs.lookup c.env.id).isSome →
      w.db.calls[j]? = some c)
    (hresults : ∀ j r, w.db.results j = some r → db.results j = some r)
    (hok : ∀ j p, db.results j = some (.ok p) → w.db.results j = some (.ok p) ∨ p.deliveries = [])
    (hupheld : Upheld publishingRegions Sane (Checked sha256) (Settles sha256) (fun _ => True) db) :
    Outbox.Step w.outbox ({ w with db := db, fast := w.afterCommit db } : FeedWorld).outbox ∧
      Delivering sha256 { w with db := db, fast := w.afterCommit db } := by
  have hdue : ∀ key score, Due db key score ↔ Due w.db key score := by
    intro key score
    unfold Due
    rw [htables]
    constructor
    · rintro ⟨j, c, hj, hkey, hblog, hrest⟩
      exact ⟨j, c, hold j c hj hblog, hkey, hblog, hrest⟩
    · rintro ⟨j, c, hj, hrest⟩
      exact ⟨j, c, hcalls j c hj, hrest⟩
  have hstep : Outbox.Step w.outbox ({ w with db := db, fast := w.afterCommit db } : FeedWorld).outbox := by
    refine .idle hdue ?_ rfl
    unfold FeedWorld.outbox
    rw [htables]
  refine ⟨hstep, h.of hstep hupheld (fun j c hj hblog => ?_) (fun j entry hentry => ?_) fun k hk => .inl hk⟩
  · have hblog' : (w.db.tables.blogs.lookup c.env.id).isSome := htables ▸ hblog
    obtain ⟨⟨p, hp, hid⟩, hreaders, hscored⟩ := h.published j c (hold j c hj hblog') hblog'
    exact ⟨⟨p, hresults j _ hp, hid⟩, hreaders, hscored⟩
  · rcases mem_afterCommit hentry with hbefore | ⟨p, hnone, hp, hmem⟩
    · exact .inl hbefore
    · rcases hok j p hp with hsame | hnothing
      · rw [hsame] at hnone
        cases hnone
      · rw [hnothing] at hmem
        cases hmem

/-- A step of the publications. -/
theorem Delivering.publishStep (h : Delivering sha256 w) (a : Act Call) :
    Outbox.Step w.outbox (w.step sha256 (.publish a)).outbox ∧
      Delivering sha256 (w.step sha256 (.publish a)) := by
  have hupheld := h.upheld.step (publishing_guarantee sha256) a fun _ _ _ => trivial
  have hresults := fun j r => h.upheld.orderly.results_step (S := publishingSystem sha256) (i := j) (r := r) a
  have hcalls := fun (j : ℕ) (c : Call) (hj : w.db.calls[j]? = some c) =>
    World.calls_step (publishingSystem sha256) w.db a hj
  simp only [FeedWorld.step]
  rcases h.upheld.commit (S := publishingSystem sha256) a with
    ⟨hsame, hok⟩ | ⟨i, c, t, p, -, hi, hc, hp, hready, hchecked, hstep⟩
  · refine h.quietStep hsame hcalls (fun j c hj hblog => ?_) hresults (fun j p hp => .inl (hok j p hp)) hupheld
    rcases World.calls_cases (publishingSystem sha256) w.db a with hcalls | ⟨c', -, hadmits, hcalls⟩
    · rwa [hcalls] at hj
    · rw [hcalls] at hj
      rcases entry_of_concat hj with hbefore | ⟨-, rfl⟩
      · exact hbefore
      · -- a call that has just begun has no post
        have hfresh := ((publishing_guarantee sha256).admitted h.upheld.tables hadmits).1.fresh
        rw [hfresh] at hblog
        cases hblog
  · rcases (ends_of_checked hchecked hp).effect with ⟨d, rfl, hwrite⟩ | ⟨hnothing, hwrite⟩
    · rw [hwrite] at hstep
      exact h.writeStep d hc hready hstep hupheld
    · rw [hstep] at hresults hcalls hupheld ⊢
      refine h.quietStep hwrite hcalls (fun _ _ hj _ => hj) hresults (fun j p' hp' => ?_) hupheld
      have hp'' : Function.update w.db.results i (some (.ok p)) j = some (.ok p') := hp'
      rcases entry_of_update hp'' with ⟨rfl, hsame⟩ | ⟨-, hbefore⟩
      · obtain rfl := Except.ok.inj hsame
        exact .inr hnothing
      · exact .inl hbefore

/-- **Every step keeps it**, and is a step of the outbox. -/
theorem Delivering.step (h : Delivering sha256 w) (a : FeedAct) :
    Outbox.Step w.outbox (w.step sha256 a).outbox ∧ Delivering sha256 (w.step sha256 a) := by
  have hidle : Outbox.Step w.outbox w.outbox := .idle (fun _ _ => Iff.rfl) rfl rfl
  cases a with
  | publish a => exact h.publishStep a
  | fast i reply => exact h.fastStep i reply
  | cut i =>
    refine ⟨hidle, h.of hidle h.upheld h.published (fun j entry hentry => .inl ?_) fun k hk => .inl hk⟩
    have hentry' : entry ∈ Function.update w.fast i [] j := hentry
    by_cases hji : j = i
    · rw [hji, Function.update_self] at hentry'
      cases hentry'
    · rwa [Function.update_of_ne hji] at hentry'
  | poll utc =>
    refine ⟨hidle, h.of hidle h.upheld h.published (fun i _ hentry => .inl hentry) fun k hk => ?_⟩
    rcases List.mem_append.mp hk with hold | hnew
    · exact .inl hold
    · obtain rfl := List.mem_singleton.mp hnew
      refine .inr (Worker.trusted_of (fun entry hentry => ?_) fun h => by cases h)
      obtain ⟨row, hrow, hscore⟩ := Tables.lookup_of_mem_pending hentry
      refine h.sound.intents entry.key entry.scoreMillis ?_
      show (w.db.tables.deliveries.lookup (entry.blogId, entry.recipientUserId)).map _ = _
      rw [hrow, hscore]
      rfl
  | work k reply => exact h.workStep k reply
  | settle k applied utc => exact h.settleStep k applied utc
  | stop k =>
    refine ⟨hidle, h.of hidle h.upheld h.published (fun i _ hentry => .inl hentry) fun u hu => ?_⟩
    rcases List.mem_or_eq_of_mem_set hu with hold | rfl
    · exact .inl hold
    · exact .inr (Worker.trusted_of nofun nofun)

end steps

/-! ## Runs -/

/-- The feeds after the steps `as`, from the tables `s`. -/
def feedRun (sha256 : List UInt8 → List UInt8) (s : Tables) (as : List FeedAct) : FeedWorld :=
  Runs.run (FeedWorld.step sha256) (FeedWorld.initial s) as

/-- **Nothing is lost and nothing is invented.** -/
structure FeedsComplete (w : FeedWorld) : Prop where
  /-- Every follower that the transaction of a post has read has the post in the feed, or will get it. -/
  kept : ∀ (i : ℕ) (c : Call), w.db.calls[i]? = some c → (w.db.tables.blogs.lookup c.env.id).isSome →
    ∀ follower ∈ c.env.followers, ∃ r score : ℕ, follower = some (r : ℤ) ∧ (score : ℤ) = c.env.now ∧
      ((∃ row, w.db.tables.deliveries.lookup (c.env.id, r) = some row ∧ row.scoreMillis = score) ∨
        w.feeds r c.env.id = some score)
  /-- A member of a feed comes from a call that has published. -/
  genuine : ∀ r b score, w.feeds r b = some score → ∃ (i : ℕ) (c : Call) (p : Publication),
    w.db.calls[i]? = some c ∧ w.db.results i = some (.ok p) ∧ p.blogId = b ∧ c.env.id = b ∧
      (w.db.tables.blogs.lookup b).isSome ∧ some (r : ℤ) ∈ c.env.followers ∧ (score : ℤ) = c.env.now
  /-- A call that has not published leaves nothing. -/
  nothing : ∀ (i : ℕ) (c : Call), w.db.calls[i]? = some c →
    (¬ ∃ p, w.db.results i = some (.ok p) ∧ p.blogId = c.env.id) →
    w.db.tables.blogs.lookup c.env.id = none ∧ ∀ r, w.db.tables.deliveries.lookup (c.env.id, r) = none ∧
      w.feeds r c.env.id = none

section runs

variable {sha256 : List UInt8 → List UInt8} {s : Tables} {w : FeedWorld}

/-- What holds at the start. -/
theorem delivering_initial (hs : Sane s) (hnone : s.deliveries = ∅) :
    Delivering sha256 (FeedWorld.initial s) := by
  have hdue : ∀ key score, ¬ Due (World.initial s ()) key score := by
    rintro key score ⟨i, c, hc, -⟩
    cases hc
  refine ⟨upheld_initial hs (), ?_, ⟨?_, ?_, ?_, ?_⟩, ?_, ?_⟩
  · intro i c hc
    cases hc
  · intro key score score' h
    exact absurd h (hdue key score)
  · intro key score h
    have hlookup : (s.deliveries.lookup key).map (fun row => row.scoreMillis) = some score := h
    rw [hnone] at hlookup
    cases hlookup
  · intro key score h
    cases h
  · intro key score h
    exact absurd h (hdue key score)
  · intro i entry h
    cases h
  · intro k h
    cases h

/-- Nothing is lost and nothing is invented, by the invariant. -/
theorem Delivering.complete (h : Delivering sha256 w) : FeedsComplete w where
  kept i c hi hblog follower hfollower := by
    obtain ⟨-, hreaders, hscored⟩ := h.published i c hi hblog
    obtain ⟨r, rfl⟩ := hreaders follower hfollower
    have hnow : (c.env.now.toNat : ℤ) = c.env.now := Int.toNat_of_nonneg hscored.le
    refine ⟨r, c.env.now.toNat, rfl, hnow, ?_⟩
    refine (h.sound.kept (c.env.id, r) c.env.now.toNat ⟨i, c, hi, rfl, hblog, hfollower, hnow⟩).imp ?_ id
    exact Option.map_eq_some_iff.mp
  genuine r b score hmember := by
    obtain ⟨i, c, hi, hkey, hblog, hfollower, hscore⟩ := h.sound.delivered (b, r) score hmember
    obtain rfl : b = c.env.id := hkey
    obtain ⟨⟨p, hp, hid⟩, -, -⟩ := h.published i c hi hblog
    exact ⟨i, c, p, hi, hp, hid, rfl, hblog, hfollower, hscore⟩
  nothing i c hi hfailed := by
    have hnone : w.db.tables.blogs.lookup c.env.id = none := by
      by_contra hblog
      exact hfailed (h.published i c hi (Option.isSome_iff_ne_none.mpr hblog)).returned
    refine ⟨hnone, fun r => ⟨h.upheld.tables.attached _ r hnone, ?_⟩⟩
    cases hmember : w.feeds r c.env.id with
    | none => rfl
    | some score =>
      obtain ⟨j, c', -, hkey, hblog, -⟩ := h.sound.delivered (c.env.id, r) score hmember
      have hid : c.env.id = c'.env.id := hkey
      rw [← hid, hnone] at hblog
      cases hblog

/-- **Every run keeps all deliveries**: what a committed post owes a follower is pending or in the feed, what
is in a feed comes from a committed post and keeps its score, and what was not committed leaves nothing. -/
theorem feeds_complete (hs : Sane s) (hnone : s.deliveries = ∅) (as : List FeedAct) :
    FeedsComplete (feedRun sha256 s as) ∧
    ∀ more r b score, (feedRun sha256 s as).feeds r b = some score →
      (feedRun sha256 s (as ++ more)).feeds r b = some score := by
  have hrun : Delivering sha256 (feedRun sha256 s as) :=
    Runs.run_invariant (I := Delivering sha256) _ (fun _ a h => (h.step a).2) as
      (delivering_initial hs hnone)
  refine ⟨hrun.complete, fun more r b score hmember => ?_⟩
  unfold feedRun at hrun hmember ⊢
  rw [Runs.run_append]
  exact Runs.run_rel (I := Delivering sha256)
    (R := fun w w' => ∀ r b score, w.feeds r b = some score → w'.feeds r b = some score) _
    (fun _ _ _ _ h => h) (fun _ _ _ h h' r b score hw => h' r b score (h r b score hw))
    (fun _ a h => (h.step a).2)
    (fun _ a h r b score hw => h.sound.delivered_step (h.step a).1 (k := (b, r)) hw) more hrun r b score hmember

/-- `shortPost` of the user 4, without a key. Redis has carried out the delivery to the follower, but does
not answer. -/
def unansweredDelivery : List FeedAct :=
  [.publish (.start (.saveBlog (some (toBlog shortPost)) (some 4) ⟨1, [some 7], 100, 0⟩)),
    .publish (.run 0), .publish (.run 0), .publish (.run 0), .publish (.run 0),
    .fast 0 (.raised true "QueryTimeoutException")]

/-- A delivery without an answer has reached the feed. -/
theorem feeds_complete_unansweredDelivery :
    (feedRun (fun _ => shortDigest) ⟨∅, ∅, ∅⟩ unansweredDelivery).feeds 7 1 = some 100 ∧
    FeedsComplete (feedRun (fun _ => shortDigest) ⟨∅, ∅, ∅⟩ unansweredDelivery) := by
  have hsane : Sane ⟨∅, ∅, ∅⟩ := ⟨fun key row hrow => (by cases hrow), fun _ _ _ => rfl⟩
  exact ⟨rfl, (feeds_complete hsane rfl unansweredDelivery).1⟩

end runs

end CampusHub.Publishing
