import CampusHub.Content.Regions

/-!
# The check of every statement

Every statement of every writer, on all tables that its transaction may find there:

* `Confined` — what was read before the lock of the post is harmless, and under the lock all depends on
  the region of the post (`Foundations.Serializability`).
* `Tables.rank` — rows are locked upwards: the post, a first-level comment, a reply, an audit.
* `Frozen` — a writer that finds its post withdrawn ends at once, and the likes of that post stay.

`content_disciplined` puts them together.

The three conditions are checked together, because all of them need the same walk through the programs: one
lemma for each kind of statement (`passes_read`, `passes_lock`, `passes_exec`, `passes_send` and so on), and
then one lemma for each writer that applies them in the order of its statements.

**Proof route.** Before the lock a program has read rows that others may have changed since. It goes on with
the parts of them that stay, such as the post of a comment, or it finds nothing later (`passes_read`,
`region_later`). Under the lock, statements are compared on tables that agree in the region, and they answer
the same there (`steady_of_eq`). The rank of a comment depends on its level, which stays.

**Left out.** Nothing of the nine writers. The calls that only read are in `Content.Pages`, `Content.Feed`
and `Content.Hot`.
-/

namespace CampusHub.Content

open CampusHub.Domain CampusHub.Foundations.Maps CampusHub.Foundations.Transactions

/-- The place of a row in the order in which rows are locked. -/
def Tables.rank (t : Tables) : Row → ℕ
  | .blog _ => 0
  | .comment id => if (t.comments.lookup id).any fun row => decide (row.parentId = 0) then 1 else 2
  | .commentAudit _ => 3
  | .replyAudit _ => 3

/-- How a writer ends that locks its post and finds it withdrawn; the withdrawals and hides of comments
go on. -/
def Call.onWithdrawn (c : Call) (blog : Blog) : Option (Except Failure (Option BlogCommentItem)) :=
  match c with
  | createComment _ _ _ => some (.error (.business { errorCode := .notFound }))
  | createReply _ _ _ _ => some (.error (.business { errorCode := .notFound }))
  | editBlog _ _ _ => some (.error (.business { errorCode := .notFound }))
  | likeBlog _ _ _ => some (.error (.business { errorCode := .notFound }))
  | withdrawBlog _ user =>
    some (if positive user = some blog.userId then .ok none
      else .error (.business { errorCode := .authorizationFailed }))
  | _ => none

/-- A running transaction of the content services. -/
abbrev ContentTask := Task Tables Row Likes Failure (Option BlogCommentItem)

/-- A statement that finds a post withdrawn is the last one and has written nothing, and no command
touches the likes of such a post. -/
def Frozen (c : Call) (t : ContentTask) (s : Tables) : Prop :=
  match t.program with
  | .exec row statement next => ∀ b blog r, row = .blog b → s.blogs.lookup b = some blog →
      blog.withdrawn = 1 → c.onWithdrawn blog = some r →
      next (statement (t.write s)).value = .done r ∧ (statement (t.write s)).write ∘ t.write = id
  | .send command _ => ∀ likes b blog, s.blogs.lookup b = some blog → blog.withdrawn = 1 →
      (command likes).2 b = likes b
  | _ => True

/-- **What every statement meets.** -/
structure Checked (c : Call) (t : ContentTask) (s : Tables) : Prop where
  confined : Confined contentSystem contentRegions c t s
  rises : ∀ row, t.program.requests = some row →
    row ∈ t.held ∨ ∀ r ∈ t.held, s.rank r < s.rank row
  frozen : Frozen c t s

/-- Every statement of a program is checked. -/
abbrev Passes (c : Call) (p : ContentTxn (Option BlogCommentItem)) (snap : Option Tables)
    (w : Tables → Tables) (held : List Row) (s : Tables) : Prop :=
  contentRegions.Throughout c (Checked c) p snap w held s

/-- The post `b` is locked, and a writer that a withdrawal stops finds it shown. -/
structure Stage (c : Call) (b : ℕ) (held : List Row) (s : Tables) : Prop where
  mine : Row.blog b ∈ held
  only : ∀ b', Row.blog b' ∈ held → b' = b
  opened : ∀ blog r, s.blogs.lookup b = some blog → c.onWithdrawn blog = some r →
    blog.withdrawn ≠ 1

/-! ## Programs statement by statement -/

section programs

variable {c : Call} {b : ℕ} {held : List Row} {s t : Tables} {snap : Option Tables}
  {w : Tables → Tables} {β : Type} {code : ErrorCode} {row : Row}

/-- What the others may do leaves the post locked, and as it was. -/
theorem Stage.rely (h : Stage c b held s) (hst : contentRegions.Rely c held s t) :
    Stage c b held t := by
  have hagree : Agree b s t := hst.2.2 b h.mine
  refine ⟨h.mine, h.only, fun blog r hblog => h.opened blog r ?_⟩
  rw [← hagree.blog]
  exact hblog

/-- Other rows may be locked as well. -/
theorem Stage.lock (h : Stage c b held s) (hrow : ∀ b', row = .blog b' → b' = b) (p : Bool) :
    Stage c b (if p then row :: held else held) s := by
  split
  · refine ⟨List.mem_cons_of_mem _ h.mine, fun b' hb' => ?_, h.opened⟩
    rcases List.mem_cons.mp hb' with heq | hold
    · exact hrow b' heq.symm
    · exact h.only b' hold
  · exact h

/-- A comment may be locked as well. -/
theorem Stage.comment (h : Stage c b held s) (id : ℕ) : Stage c b (.comment id :: held) s :=
  h.lock (fun _ hb => by cases hb) true

/-- Under the lock the region of the post stays. -/
theorem Stage.agree (h : Stage c b held s) (hst : contentRegions.Rely c held s t) : Agree b s t :=
  hst.2.2 b h.mine

/-- A program that is over has no statement left. -/
theorem passes_done (r : Except Failure (Option BlogCommentItem)) :
    Passes c (.done r) snap w held s :=
  fun _ _ => ⟨trivial, nofun, trivial⟩

/-- A value that may be missing, which is refused. -/
theorem passes_orRefuse {value : Option β} {k : β → ContentTxn (Option BlogCommentItem)}
    (h : ∀ v, value = some v → Passes c (k v) snap w held s) :
    Passes c (orRefuse value code >>= k) snap w held s := by
  cases value with
  | none => exact passes_done _
  | some v => exact h v rfl

/-- A check that may be refused. -/
theorem passes_ite {P : Prop} [Decidable P] {p : ContentTxn (Option BlogCommentItem)}
    (h : P → Passes c p snap w held s) :
    Passes c (if P then p else refuse code) snap w held s := by
  split
  · rename_i hP
    exact h hP
  · exact passes_done _

/-- What follows the read of a row that others may have changed since: it does what the call does, or
finds nothing. -/
theorem includes_of_read {query : Tables → Option β} {k : β → ContentTxn (Option BlogCommentItem)}
    {v : β} {u : Tables} (hcall : c.program = (found (.read query) >>= k))
    (hsame : ∀ v', query u = some v' → k v' = k v)
    (hnone : query u = none → ∀ r t', (k v).Acts id u r t' →
      r = .error (.business { errorCode := .notFound }) ∧ t' = u) :
    Includes contentSystem c (k v) id u := by
  intro r t' h
  show c.program.Acts id u r t'
  rw [hcall, found_read_bind, Txn.acts_select]
  cases hv : query (id u) with
  | none => exact hnone hv r t' h
  | some v' =>
    show (k v').Acts id u r t'
    rw [hsame v' hv]
    exact h

/-- A read before the lock. What follows depends on parts of the row that stay, and finds nothing once
the read finds nothing. -/
theorem passes_read {query : Tables → Option β} {k : β → ContentTxn (Option BlogCommentItem)}
    (hcall : c.program = (found (.read query) >>= k))
    (hsame : ∀ t u v v', Evolves t u → query t = some v → query u = some v' → k v' = k v)
    (hnone : ∀ t u v, Evolves t u → query t = some v → query u = none → ∀ r t',
      (k v).Acts id u r t' → r = .error (.business { errorCode := .notFound }) ∧ t' = u)
    (hnext : ∀ t v, contentRegions.Rely c [] s t → query t = some v →
      Passes c (k v) (some t) id [] t) :
    Passes c (found (.read query) >>= k) none id [] s := by
  rw [found_read_bind]
  intro t ht
  refine ⟨⟨.inr ⟨rfl, ?_⟩, nofun, trivial⟩, passes_orRefuse fun v hv => hnext t v ht hv⟩
  show Harmless _ _ _ (orRefuse (query t) .notFound >>= k) id t
  cases hv : query t with
  | none => exact .inl ⟨_, rfl⟩
  | some v =>
    exact .inr fun u hu _ => includes_of_read hcall (fun v' => hsame t u v v' hu hv)
      (hnone t u v hu hv)

/-- A read of what the transaction itself has written. -/
theorem passes_select {query : Tables → β} {next : β → ContentTxn (Option BlogCommentItem)}
    (hown : ∀ s₁ s₂, query (w s₁) = query (w s₂))
    (hnext : ∀ t snap v, Passes c (next v) snap w held t) :
    Passes c (.select query next) snap w held s :=
  fun t _ => ⟨⟨.inl hown, nofun, trivial⟩, hnext t _ _⟩

/-- The lock of the post. -/
theorem passes_lock {value : Option Blog → Option β} {k : β → ContentTxn (Option BlogCommentItem)}
    (hnone : value none = none) (hregion : ∀ t, Evolves s t → c.region t = some b)
    (hfrozen : ∀ blog r, blog.withdrawn = 1 → c.onWithdrawn blog = some r →
      (orRefuse (value (some blog)) .notFound >>= k) = .done r)
    (hnext : ∀ t blog v, contentRegions.Rely c [] s t → t.blogs.lookup b = some blog →
      value (some blog) = some v → Passes c (k v) snap id [.blog b] t) :
    Passes c (found (.on (.blog b) fun t => t.lockBlogWhere b value) >>= k) snap id [] s := by
  rw [found_on_bind]
  intro t ht
  refine ⟨⟨⟨nofun, fun _ => ?_⟩, fun _ _ => .inr nofun,
    fun b' blog r hb' hblog hwithdrawn hr => ?_⟩, ?_⟩
  · split
    · refine ⟨b, rfl, fun u hu => hregion u (ht.1.trans hu), fun u hu => ⟨?_, rfl⟩⟩
      exact congrArg value (Agree.blog hu)
    · rename_i habsent
      have hlookup : t.blogs.lookup b = none := Option.not_isSome_iff_eq_none.mp habsent
      refine ⟨rfl, .inl ⟨.business { errorCode := .notFound }, ?_⟩⟩
      show (orRefuse (value (t.blogs.lookup b)) .notFound >>= k) = _
      rw [hlookup, hnone]
      rfl
  · obtain rfl := Row.blog.inj hb'
    refine ⟨?_, rfl⟩
    show (orRefuse (value (t.blogs.lookup b)) .notFound >>= k) = _
    rw [hblog]
    exact hfrozen blog r hwithdrawn hr
  · refine passes_orRefuse fun v hv => ?_
    cases hblog : t.blogs.lookup b with
    | none =>
      have hv' : value (t.blogs.lookup b) = some v := hv
      rw [hblog, hnone] at hv'
      cases hv'
    | some blog =>
      have hv' : value (t.blogs.lookup b) = some v := hv
      rw [hblog] at hv'
      have hheld : (Tables.lockBlogWhere (id t) b value).held = true :=
        Option.isSome_of_eq_some hblog
      rw [if_pos hheld]
      exact hnext t blog v ht hblog hv'

/-- A statement under the lock. -/
theorem passes_exec {statement : Tables → Answer Tables β}
    {next : β → ContentTxn (Option BlogCommentItem)} (hstage : Stage c b held s)
    (hrow : ∀ b', row = .blog b' → b' = b)
    (hrises : ∀ t, contentRegions.Rely c held s t →
      row ∈ held ∨ ∀ r ∈ held, t.rank r < t.rank row)
    (hsteady : ∀ t, contentRegions.Rely c held s t → contentRegions.Steady b w statement t)
    (hnext : ∀ t, contentRegions.Rely c held s t → Passes c (next (statement (w t)).value) snap
      ((statement (w t)).write ∘ w) (if (statement (w t)).held then row :: held else held) t) :
    Passes c (.exec row statement next) snap w held s := by
  intro t ht
  refine ⟨⟨⟨fun g hg => ?_, fun hfree => absurd hstage.mine (hfree b)⟩, fun r hr => ?_,
    fun b' blog r hb' hblog hwithdrawn hr => ?_⟩, hnext t ht⟩
  · obtain rfl := hstage.only g hg
    exact ⟨hrow, hsteady t ht⟩
  · obtain rfl := Option.some.inj hr
    exact hrises t ht
  · obtain rfl := hrow b' hb'
    exact absurd hwithdrawn ((hstage.rely ht).opened blog r hblog hr)

/-- A command to Redis under the lock. -/
theorem passes_send {command : Likes → β × Likes} {next : β → ContentTxn (Option BlogCommentItem)}
    (hstage : Stage c b held s) (hcall : ∀ blog, ∃ r, c.onWithdrawn blog = some r)
    (hcommand : ∀ likes b', b' ≠ b → (command likes).2 b' = likes b')
    (hnext : ∀ t v, contentRegions.Rely c held s t → Passes c (next v) snap w held t) :
    Passes c (.send command next) snap w held s := by
  intro t ht
  refine ⟨⟨⟨b, hstage.mine⟩, nofun, fun likes b' blog hblog hwithdrawn => hcommand likes b' ?_⟩,
    fun v => hnext t v ht⟩
  rintro rfl
  obtain ⟨r, hr⟩ := hcall blog
  exact (hstage.rely ht).opened blog r hblog hr hwithdrawn

/-- The lock of a comment of the post. -/
theorem passes_lockComment {i : ℕ} {f : Option BlogComments → Option β}
    {statement : Tables → Answer Tables (Option β)} {k : β → ContentTxn (Option BlogCommentItem)}
    (hstatement : ∀ t, statement t =
      { value := f (t.commentOf b i), held := (t.comments.lookup i).isSome })
    (hnone : f none = none) (hstage : Stage c b held s)
    (hrises : ∀ t, contentRegions.Rely c held s t → ∀ r ∈ held, t.rank r < t.rank (.comment i))
    (hnext : ∀ t row v, contentRegions.Rely c held s t → t.commentOf b i = some row →
      f (some row) = some v → Passes c (k v) snap id (.comment i :: held) t) :
    Passes c (found (.on (.comment i) statement) >>= k) snap id held s := by
  rw [found_on_bind]
  refine passes_exec hstage nofun (fun t ht => .inr (hrises t ht)) (fun t ht u hu => ?_)
    fun t ht => passes_orRefuse fun v hv => ?_
  · show (statement u).value = (statement t).value ∧ (statement u).write = (statement t).write
    rw [hstatement, hstatement, Agree.comment hu i]
    exact ⟨rfl, rfl⟩
  · have hv' : (statement t).value = some v := hv
    rw [hstatement] at hv'
    cases hrow : t.commentOf b i with
    | none =>
      rw [hrow, hnone] at hv'
      cases hv'
    | some row =>
      rw [hrow] at hv'
      have hlookup := (Tables.commentOf_eq_some.mp hrow).1
      have hheld : (statement (id t)).held = true := by
        rw [hstatement]
        exact Option.isSome_of_eq_some hlookup
      have hwrite : (statement (id t)).write ∘ id = id := by
        rw [hstatement]
        rfl
      rw [if_pos hheld, hwrite]
      exact hnext t row v ht hrow hv'

end programs

/-! ## What comes after the locks -/

section tails

variable {c : Call} {b i : ℕ} {held : List Row} {s t : Tables} {snap : Option Tables}

/-- A comment that is not there counts as a reply. -/
theorem rank_comment_of_none (h : t.comments.lookup i = none) : t.rank (.comment i) = 2 := by
  simp [Tables.rank, h]

/-- A first-level comment comes before the replies. -/
theorem rank_comment {row : BlogComments} (h : t.comments.lookup i = some row) :
    t.rank (.comment i) = if row.parentId = 0 then 1 else 2 := by
  simp [Tables.rank, h]

/-- Every comment comes after its post. -/
theorem rank_comment_pos : 0 < t.rank (.comment i) := by
  unfold Tables.rank
  dsimp only
  split <;> omega

/-- Every comment comes before the audits. -/
theorem rank_comment_le : t.rank (.comment i) ≤ 2 := by
  unfold Tables.rank
  dsimp only
  split <;> omega

/-- A statement that answers the same on all tables that agree. -/
theorem steady_of_eq {β : Type} {statement : Tables → Answer Tables β} {w : Tables → Tables}
    (h : ∀ u, Agree b t u → statement (w u) = statement (w t)) :
    contentRegions.Steady b w statement t :=
  fun u hu => ⟨congrArg _ (h u hu), congrArg _ (h u hu)⟩

/-- An update of a post is read off its row. -/
theorem updateBlog_congr {p : Blog → Bool} {f : Blog → Blog}
    (h : s.blogs.lookup b = t.blogs.lookup b) : s.updateBlog b p f = t.updateBlog b p f := by
  simp only [Tables.updateBlog, h]

/-- The counter of comments is read off the row of the post. -/
theorem incrementCommentCount_congr (h : s.blogs.lookup b = t.blogs.lookup b) :
    s.incrementCommentCount b = t.incrementCommentCount b := by
  simp only [Tables.incrementCommentCount, h]

/-- The counter of likes is read off the row of the post. -/
theorem incrementLiked_congr (h : s.blogs.lookup b = t.blogs.lookup b) :
    s.incrementLiked b = t.incrementLiked b := by
  simp only [Tables.incrementLiked, h]

/-- The insertion of a comment, and the counter of its post. -/
theorem passes_addComment {comment : BlogComments} (hstage : Stage c b held s)
    (hid : c.generated = some i) (hcomment : comment.blogId = b)
    (hheld : ∀ t, contentRegions.Rely c held s t → ∀ r ∈ held, t.rank r < 2) :
    Passes c (addComment i comment) snap id held s := by
  subst hcomment
  rw [addComment, one_on_bind]
  refine passes_exec hstage (fun _ h => by cases h) (fun t ht => .inr fun r hr => ?_) (fun t _ u _ => ⟨rfl, rfl⟩)
    fun t ht => passes_ite fun _ => ?_
  · -- nobody has the row yet
    rw [rank_comment_of_none (ht.2.1 i hid).2]
    exact hheld t ht r hr
  rw [oneOrFail_on_bind]
  have hstage' := (hstage.rely ht).comment i
  refine passes_exec hstage' (fun b' hb' => (Row.blog.inj hb').symm)
    (fun u _ => .inl hstage'.mine)
    (fun u _ => steady_of_eq fun v hv => ?_)
    fun u _ => passes_orRefuse fun n hn => passes_ite fun hn' =>
      passes_select (fun s₁ s₂ => ?_) fun v snap row => passes_orRefuse fun stored _ => passes_done _
  · have hblog : v.blogs.lookup comment.blogId = u.blogs.lookup comment.blogId := Agree.blog hv
    exact incrementCommentCount_congr hblog
  · subst hn'
    obtain ⟨blog, -, -, hwrite⟩ := Tables.exists_of_incrementCommentCount hn
    have hlookup : ∀ v : Tables, Tables.selectById
        (((Tables.incrementCommentCount (((Tables.insertComment i comment).write ∘ id) u)
          comment.blogId).write ∘ (Tables.insertComment i comment).write ∘ id) v) i = some comment := by
      intro v
      rw [Function.comp_apply, hwrite]
      exact Finmap.lookup_insert _
    exact (hlookup s₁).trans (hlookup s₂).symm

/-- The write to the status of a comment, and the counter of its post. -/
theorem passes_countOut {p : BlogComments → Bool} {status : ℕ}
    {k : Unit → ContentTxn (Option BlogCommentItem)} (hstage : Stage c b held s)
    (hcomment : .comment i ∈ held)
    (hk : ∀ t w held', contentRegions.Rely c held s t →
      (∀ u : Tables, (w u).commentAudits = u.commentAudits ∧ (w u).replyAudits = u.replyAudits) →
      (∀ r, r ∈ held' ↔ r ∈ held) → Passes c (k ()) snap w held' t) :
    Passes c (one (.on (.comment i) fun t => t.updateStatus i b p status) >>= fun _ =>
      one (.on (.blog b) fun t => t.decrementCommentCount b) >>= k) snap id held s := by
  rw [one_on_bind]
  refine passes_exec hstage nofun (fun t ht => .inl hcomment) (fun t ht u hu => ?_)
    fun t ht => passes_ite fun hn => ?_
  · simp only [Tables.updateStatus, id_eq, Agree.comment hu i]
    split <;> exact ⟨rfl, rfl⟩
  rw [one_on_bind]
  obtain ⟨row, -, -, -, -, hwrite⟩ := Tables.exists_of_updateStatus hn
  rw [hwrite]
  have hstage' : Stage c b (if (t.updateStatus i b p status).held then .comment i :: held else held)
      t := (hstage.rely ht).lock (fun _ hb => by cases hb) _
  have hheld' : ∀ r, r ∈ (if (t.updateStatus i b p status).held then .comment i :: held else held) ↔
      r ∈ held := by
    intro r
    split
    · rw [List.mem_cons]
      refine ⟨fun h => ?_, .inr⟩
      rcases h with rfl | hold
      · exact hcomment
      · exact hold
    · rfl
  refine passes_exec hstage' (fun b' hb' => (Row.blog.inj hb').symm) (fun u _ => .inl hstage'.mine)
    (fun u _ => steady_of_eq fun v hv => ?_) fun u hu => passes_ite fun hn' => ?_
  · have hblog : v.blogs.lookup b = u.blogs.lookup b := Agree.blog hv
    exact updateBlog_congr hblog
  obtain ⟨blog, -, -, hwrite'⟩ := Tables.exists_of_updateBlog hn'
  refine hk u _ _ (ht.trans (hu.mono fun r hr => (hheld' r).mpr hr)) (fun v => ?_) fun r => ?_
  · rw [Tables.decrementCommentCount, Function.comp_apply, hwrite']
    exact ⟨rfl, rfl⟩
  · split
    · rw [List.mem_cons]
      refine ⟨fun h => ?_, fun h => .inr ((hheld' r).mpr h)⟩
      rcases h with rfl | hold
      · exact hstage.mine
      · exact (hheld' r).mp hold
    · exact hheld' r

/-- The end of both hides. -/
theorem passes_hideLocked {β : Type} {p : BlogComments → Bool} {current : BlogComments} {auditRow : Row}
    {audit : Tables → Answer Tables (Option β)} {insertAudit : Tables → Answer Tables (Option ℕ)}
    (hstage : Stage c b held s) (hcomment : .comment i ∈ held) (hguard : ∀ b', auditRow ≠ .blog b')
    (hrises : ∀ t, contentRegions.Rely c held s t → ∀ r ∈ held, t.rank r < t.rank auditRow)
    (haudit : ∀ t, contentRegions.Rely c held s t → contentRegions.Steady b id audit t)
    (hinsert : ∀ t w, contentRegions.Rely c held s t →
      (∀ u : Tables, (w u).commentAudits = u.commentAudits ∧ (w u).replyAudits = u.replyAudits) →
      contentRegions.Steady b w insertAudit t) :
    Passes c (hideLocked b current (.on auditRow audit)
      (.on (.comment i) fun t => t.updateStatus i b p 2) (.on auditRow insertAudit))
      snap id held s := by
  have hrow : ∀ b', auditRow = .blog b' → b' = b := fun b' h => absurd h (hguard b')
  unfold hideLocked
  split
  · rw [found_on_bind]
    exact passes_exec hstage hrow (fun t ht => .inr (hrises t ht)) haudit
      fun t _ => passes_orRefuse fun _ _ => passes_done _
  · refine passes_countOut hstage hcomment fun t w held' ht hw hheld' => ?_
    have hstage' : Stage c b held' t := by
      obtain ⟨hmine, honly, hopened⟩ := hstage.rely ht
      exact ⟨(hheld' _).mpr hmine, fun b' hb' => honly b' ((hheld' _).mp hb'), hopened⟩
    have hrely : ∀ u, contentRegions.Rely c held' t u → contentRegions.Rely c held s u :=
      fun u hu => ht.trans (hu.mono fun r hr => (hheld' r).mpr hr)
    rw [oneOrFail_on_bind]
    exact passes_exec hstage' hrow
      (fun u hu => .inr fun r hr => hrises u (hrely u hu) r ((hheld' r).mp hr))
      (fun u hu => hinsert u w (hrely u hu) hw)
      fun u _ => passes_orRefuse fun n _ => passes_ite fun _ => passes_done _

end tails

/-! ## The writers of comments -/

section writers

variable {c : Call} {b : ℕ} {held : List Row} {s t u t' : Tables} {snap : Option Tables}
  {r : Except Failure (Option BlogCommentItem)} {β : Type}

/-- A post that is shown was locked. -/
theorem stage_of_visible {blog : Blog} (hblog : t.blogs.lookup b = some blog)
    (hvisible : blog.withdrawn = 0) : Stage c b [.blog b] t where
  mine := List.mem_singleton.mpr rfl
  only b' hb' := Row.blog.inj (List.mem_singleton.mp hb')
  opened blog' r hblog' _ := by
    obtain rfl := Option.some.inj (hblog.symm.trans hblog')
    omega

/-- A writer that no withdrawal stops may lock any post. -/
theorem stage_of_none (h : ∀ blog, c.onWithdrawn blog = none) : Stage c b [.blog b] t where
  mine := List.mem_singleton.mpr rfl
  only b' hb' := Row.blog.inj (List.mem_singleton.mp hb')
  opened blog r _ hr := by
    rw [h blog] at hr
    cases hr

/-- A comment is locked after its post. -/
theorem rank_blog_lt {i : ℕ} : ∀ r ∈ [Row.blog b], t.rank r < t.rank (.comment i) := by
  intro r hr
  rw [List.mem_singleton.mp hr]
  exact rank_comment_pos

/-- The post of a comment stays. -/
theorem region_later {i : ℕ} {row : BlogComments} (hi : 0 < i) (hrow : t.comments.lookup i = some row)
    (hu : Evolves t u) : ((positive (some (i : ℤ))).bind fun i =>
      (u.comments.lookup i).map (·.blogId)) = some row.blogId := by
  obtain ⟨row', hrow', hbecomes, -⟩ := hu.comments i row hrow
  rw [region_ofComment hi hrow', hbecomes]

/-- A step that finds nothing, or is followed by one that finds nothing. -/
theorem refused_of_found {row : Row} {statement : Tables → Answer Tables (Option β)}
    {k : β → ContentTxn (Option BlogCommentItem)} (hwrite : (statement u).write = id)
    (h : (found (.on row statement) >>= k).Acts id u r t')
    (hk : ∀ v, (statement u).value = some v → (k v).Acts id u r t' →
      r = .error (.business { errorCode := .notFound }) ∧ t' = u) :
    r = .error (.business { errorCode := .notFound }) ∧ t' = u := by
  rw [found_on_bind, Txn.acts_exec] at h
  cases hv : (statement u).value with
  | none =>
    have hv' : (statement (id u)).value = none := hv
    rw [hv'] at h
    exact h
  | some v =>
    have hv' : (statement (id u)).value = some v := hv
    have hwrite' : (statement (id u)).write ∘ id = id := hwrite
    rw [hv', hwrite'] at h
    exact hk v hv h

/-- Creating a comment keeps the discipline. -/
theorem passes_createComment {request : Option BlogCommentCreateRequest} {user : Option ℤ} {i : ℕ} :
    Passes (.createComment request user i) (createComment request user i) none id [] s := by
  refine passes_orRefuse fun valid hvalid => passes_orRefuse fun userId _ => ?_
  refine passes_lock rfl (fun t _ => ?_) (fun blog r hwithdrawn hr => ?_) fun t blog v _ hblog hv => ?_
  · rw [Call.region, hvalid]
    rfl
  · obtain rfl := Option.some.inj hr
    simp only [Option.filter_some, hwithdrawn]
    rfl
  · have hvisible : blog.withdrawn = 0 := by
      by_contra hne
      simp [Option.filter_some, hne] at hv
    refine passes_addComment (stage_of_visible hblog hvisible) rfl rfl fun u _ r hr => ?_
    rw [List.mem_singleton.mp hr]
    exact Nat.zero_lt_two

/-- A row that is not visible is not visible as a row of its post. -/
theorem commentOf_filter_of_none {i : ℕ} {p : BlogComments → Bool}
    (h : (t.comments.lookup i).filter p = none) : (t.commentOf b i).filter p = none := by
  cases hrow : t.commentOf b i with
  | none => rfl
  | some row => rwa [(Tables.commentOf_eq_some.mp hrow).1] at h

/-- Creating a reply keeps the discipline. -/
theorem passes_createReply {commentId user : Option ℤ} {request : Option BlogCommentReplyRequest}
    {i : ℕ} :
    Passes (.createReply commentId request user i) (createReply commentId request user i) none id []
      s := by
  refine passes_orRefuse fun rootId hrootId => passes_orRefuse fun content hcontent =>
    passes_orRefuse fun userId huser => passes_read ?_ (fun t u root root' hu hroot hroot' => ?_)
      (fun t u root _ _ hnone r t' h => ?_) fun t root _ hroot => ?_
  · simp only [Call.program, createReply, hrootId, hcontent, huser, orRefuse_some, Txn.pure_eq,
      Txn.ok_bind]
  · obtain ⟨row, hrow, hbecomes, -⟩ := hu.comments rootId root (exists_of_findVisibleRoot hroot).1
    obtain rfl := Option.some.inj (hrow.symm.trans (exists_of_findVisibleRoot hroot').1)
    have hblog : row.blogId = root.blogId := by rw [hbecomes]
    simp only [hblog]
  · refine refused_of_found rfl h fun _ _ h => refused_of_found rfl h fun v hv _ => ?_
    rw [show (u.lockVisibleRoot rootId root.blogId).value = none from
      commentOf_filter_of_none hnone] at hv
    cases hv
  · obtain ⟨hlookup, -⟩ := exists_of_findVisibleRoot hroot
    obtain ⟨hpos, rfl⟩ := exists_of_positive hrootId
    refine passes_lock rfl (fun u hu => region_later hpos hlookup hu)
      (fun blog r hwithdrawn hr => ?_) fun u blog v hu hblog hv => ?_
    · obtain rfl := Option.some.inj hr
      simp only [Option.filter_some, hwithdrawn]
      rfl
    have hvisible : blog.withdrawn = 0 := by
      by_contra hne
      simp [Option.filter_some, hne] at hv
    have hstage := stage_of_visible (c := .createReply (some rootId) request user i) hblog hvisible
    refine passes_lockComment (fun _ => rfl) rfl hstage (fun _ _ => rank_blog_lt)
      fun u' row row' hu' hrow hrow' => ?_
    have hstage' := (hstage.rely hu').comment rootId
    refine passes_addComment hstage' rfl rfl fun v hv r hr => ?_
    -- the root stays a first-level comment
    have hroot' : v.commentOf root.blogId rootId = some row :=
      ((hstage'.agree hv).comment rootId).trans hrow
    rcases List.mem_cons.mp hr with rfl | hr
    · rw [rank_comment (Tables.commentOf_eq_some.mp hroot').1, if_pos]
      · exact Nat.one_lt_two
      · simp only [Option.filter_eq_some_iff, Bool.and_eq_true, decide_eq_true_eq, Level.fits] at hrow'
        obtain ⟨hrow', ⟨hparent, -⟩, -⟩ := hrow'
        obtain rfl := Option.some.inj hrow'
        exact hparent
    · rw [List.mem_singleton.mp hr]
      exact Nat.zero_lt_two

/-- The author may withdraw a comment of a withdrawn post. -/
theorem withdrawal_onWithdrawn {level : Level} {id user : Option ℤ} (blog : Blog) :
    (level.withdrawal id user).onWithdrawn blog = none := by
  cases level <;> rfl

/-- Withdrawing a comment or a reply. -/
theorem passes_withdrawOwned (level : Level) {commentId user : Option ℤ} :
    Passes (level.withdrawal commentId user) (withdrawOwned level commentId user) none id [] s := by
  refine passes_orRefuse fun i hi => passes_orRefuse fun userId huser =>
    passes_read ?_ (fun t u row row' hu hrow hrow' => ?_)
      (fun t u row _ _ hnone r t' h => ?_) fun t row _ hrow => ?_
  · have hcall : (level.withdrawal commentId user).program = withdrawOwned level commentId user := by
      cases level <;> rfl
    rw [hcall]
    simp only [withdrawOwned, hi, huser, orRefuse_some, Txn.pure_eq, Txn.ok_bind]
  · obtain ⟨later, hlater, hbecomes, -⟩ := hu.comments i row (exists_of_findOwned hrow).1
    obtain rfl := Option.some.inj (hlater.symm.trans (exists_of_findOwned hrow').1)
    have hblog : later.blogId = row.blogId := by rw [hbecomes]
    simp only [hblog]
  · refine refused_of_found rfl h fun _ _ h => refused_of_found rfl h fun v hv _ => ?_
    rw [show (u.lockOwned level i row.blogId userId).value = none from
      commentOf_filter_of_none hnone] at hv
    cases hv
  · obtain ⟨hlookup, -⟩ := exists_of_findOwned hrow
    obtain ⟨hpos, rfl⟩ := exists_of_positive hi
    have hregion : ∀ u, Evolves t u →
        (level.withdrawal (some i) user).region u = some row.blogId := by
      intro u hu
      cases level <;> exact region_later hpos hlookup hu
    refine passes_lock rfl hregion (fun blog r _ hr => ?_) fun u blog v hu hblog hv => ?_
    · rw [withdrawal_onWithdrawn] at hr
      cases hr
    have hstage : Stage (level.withdrawal (some i) user) row.blogId [.blog row.blogId] u :=
      stage_of_none withdrawal_onWithdrawn
    refine passes_lockComment (fun _ => rfl) rfl hstage (fun _ _ => rank_blog_lt)
      fun u' current current' hu' _ _ => ?_
    split
    · exact passes_done _
    · exact passes_countOut ((hstage.rely hu').comment i) List.mem_cons_self
        fun _ _ _ _ _ _ => passes_done _

/-- Hiding a comment keeps the discipline. -/
theorem passes_hideComment {commentId user : Option ℤ} {request : Option BlogCommentHideRequest} :
    Passes (.hideComment commentId request user) (hideComment commentId request user) none id [] s := by
  refine passes_orRefuse fun i hi => passes_orRefuse fun reason hreason =>
    passes_orRefuse fun operator hoperator => passes_read ?_ (fun t u row row' hu hrow hrow' => ?_)
      (fun t u row _ _ hnone r t' h => ?_) fun t row _ hrow => ?_
  · simp only [Call.program, hideComment, hi, hreason, hoperator, orRefuse_some, Txn.pure_eq,
      Txn.ok_bind]
  · obtain ⟨later, hlater, hbecomes, -⟩ := hu.comments i row (exists_of_findModeratable hrow).1
    obtain rfl := Option.some.inj (hlater.symm.trans (exists_of_findModeratable hrow').1)
    have hblog : later.blogId = row.blogId := by rw [hbecomes]
    simp only [hblog]
  · refine refused_of_found rfl h fun _ _ h => refused_of_found rfl h fun v hv _ => ?_
    rw [show (u.lockModeratableFirstLevelComment i row.blogId).value = none from
      commentOf_filter_of_none hnone] at hv
    cases hv
  · obtain ⟨hlookup, -⟩ := exists_of_findModeratable hrow
    obtain ⟨hpos, rfl⟩ := exists_of_positive hi
    refine passes_lock rfl (fun u hu => region_later hpos hlookup hu) (fun _ _ _ h => by cases h)
      fun u blog v hu hblog hv => ?_
    have hstage : Stage (.hideComment (some i) request user) row.blogId [.blog row.blogId] u :=
      stage_of_none fun _ => rfl
    refine passes_lockComment (fun _ => rfl) rfl hstage (fun _ _ => rank_blog_lt)
      fun u' current current' hu' hcurrent _ => ?_
    have hstage' := (hstage.rely hu').comment i
    have hmine : ∀ v, contentRegions.Rely (.hideComment (some i) request user)
        [.comment i, .blog row.blogId] u' v → (v.commentOf row.blogId i).isSome := by
      intro v hv
      rw [(hstage'.agree hv).comment, hcurrent]
      rfl
    refine passes_hideLocked hstage' List.mem_cons_self (fun _ h => by cases h) (fun v hv r hr => ?_)
      (fun v hv => steady_of_eq fun x hx => ?_) fun v w hv hw => steady_of_eq fun x hx => ?_
    · rcases List.mem_cons.mp hr with rfl | hr
      · exact Nat.lt_succ_of_le rank_comment_le
      · rw [List.mem_singleton.mp hr]
        exact Nat.zero_lt_succ 2
    · simp only [Tables.findFirstLevelHideAudit, id_eq, hx.commentAudit i (hmine v hv)]
    · simp only [Tables.insertFirstLevelHideAudit, (hw _).1, hx.commentAudit i (hmine v hv)]

/-- Hiding a reply keeps the discipline. -/
theorem passes_hideReply {replyId user : Option ℤ} {request : Option BlogCommentHideRequest} :
    Passes (.hideReply replyId request user) (hideReply replyId request user) none id [] s := by
  refine passes_orRefuse fun i hi => passes_orRefuse fun reason hreason =>
    passes_orRefuse fun operator hoperator => passes_read ?_ (fun t u row row' hu hrow hrow' => ?_)
      (fun t u row hu hrow hnone r t' h => ?_) fun t row _ hrow => ?_
  · simp only [Call.program, hideReply, hi, hreason, hoperator, orRefuse_some, Txn.pure_eq,
      Txn.ok_bind]
  · obtain ⟨later, hlater, hbecomes, -⟩ := hu.comments i row (exists_of_findModeratable hrow).1
    obtain rfl := Option.some.inj (hlater.symm.trans (exists_of_findModeratable hrow').1)
    have hblog : later.blogId = row.blogId := by rw [hbecomes]
    have hparent : later.parentId = row.parentId := by rw [hbecomes]
    simp only [hblog, hparent]
  · refine refused_of_found rfl h fun _ _ h => refused_of_found rfl h fun _ _ h =>
      refused_of_found rfl h fun v hv _ => ?_
    simp only [Tables.lockModeratableDirectReply, Tables.lockComment, Option.filter_eq_some_iff,
      Tables.commentOf_eq_some, Bool.and_eq_true, decide_eq_true_eq] at hv
    obtain ⟨⟨hv, -⟩, hreplies, hstatus⟩ := hv
    have hfits : Level.directReply.fits v = true := by
      simp only [Tables.repliesTo, decide_eq_true_eq] at hreplies
      simp only [Level.fits, decide_eq_true_eq]
      exact ⟨hreplies.2.2, hreplies.2.1.trans hreplies.1.symm⟩
    rw [Tables.findModeratableDirectReply, Tables.findModeratable, hv] at hnone
    simp [Option.filter_some, hfits, hstatus] at hnone
  · obtain ⟨hlookup, hfits, -⟩ := exists_of_findModeratable hrow
    obtain ⟨hpos, rfl⟩ := exists_of_positive hi
    refine passes_lock rfl (fun u hu => region_later hpos hlookup hu) (fun _ _ _ h => by cases h)
      fun u blog v hu hblog hv => ?_
    have hstage : Stage (.hideReply (some i) request user) row.blogId [.blog row.blogId] u :=
      stage_of_none fun _ => rfl
    refine passes_lockComment
      (f := fun root => (root.filter Level.firstLevel.fits).map fun _ => row.parentId)
      (fun _ => rfl) rfl hstage (fun _ _ => rank_blog_lt) fun u₁ root root' hu₁ hroot hroot' => ?_
    have hstage₁ := (hstage.rely hu₁).comment row.parentId
    refine passes_lockComment (fun _ => rfl) rfl hstage₁ (fun u₂ hu₂ r hr => ?_)
      fun u₂ current current' hu₂ hcurrent _ => ?_
    · -- the root is below the reply
      obtain ⟨later, hlater, hbecomes, -⟩ := (hu.1.trans (hu₁.1.trans hu₂.1)).comments i row hlookup
      have hparent : 0 < later.parentId := by
        rw [hbecomes]
        simp only [Level.fits, decide_eq_true_eq] at hfits
        exact hfits.1
      rw [rank_comment hlater, if_neg (Nat.ne_of_gt hparent)]
      rcases List.mem_cons.mp hr with rfl | hr
      · have hsame : u₂.commentOf row.blogId row.parentId = some root :=
          ((hstage₁.agree hu₂).comment row.parentId).trans hroot
        simp only [Option.map_eq_some_iff, Option.filter_eq_some_iff, Level.fits,
          decide_eq_true_eq] at hroot'
        obtain ⟨_, ⟨hroot', hfirst, -⟩, -⟩ := hroot'
        obtain rfl := Option.some.inj hroot'
        rw [rank_comment (Tables.commentOf_eq_some.mp hsame).1, if_pos hfirst]
        exact Nat.one_lt_two
      · rw [List.mem_singleton.mp hr]
        exact Nat.zero_lt_two
    have hstage₂ := (hstage₁.rely hu₂).comment i
    have hmine : ∀ v, contentRegions.Rely (.hideReply (some i) request user)
        [.comment i, .comment row.parentId, .blog row.blogId] u₂ v →
        (v.commentOf row.blogId i).isSome := by
      intro v hv
      rw [(hstage₂.agree hv).comment, hcurrent]
      rfl
    refine passes_hideLocked hstage₂ List.mem_cons_self (fun _ h => by cases h) (fun v hv r hr => ?_)
      (fun v hv => steady_of_eq fun x hx => ?_) fun v w hv hw => steady_of_eq fun x hx => ?_
    · rcases List.mem_cons.mp hr with rfl | hr
      · exact Nat.lt_succ_of_le rank_comment_le
      rcases List.mem_cons.mp hr with rfl | hr
      · exact Nat.lt_succ_of_le rank_comment_le
      · rw [List.mem_singleton.mp hr]
        exact Nat.zero_lt_succ 2
    · simp only [Tables.findDirectReplyHideAudit, id_eq, hx.replyAudit i (hmine v hv)]
    · simp only [Tables.insertDirectReplyHideAudit, (hw _).2, hx.replyAudit i (hmine v hv)]

/-! ## The writers of posts -/

/-- An update of the post under the lock is the last statement. -/
theorem passes_updateBlog {p : Blog → Bool} {f : Blog → Blog} (hstage : Stage c b held s) :
    Passes c (one (.on (.blog b) fun t => t.updateBlog b p f) >>= fun _ => pure none) snap id held
      s := by
  rw [one_on_bind]
  refine passes_exec hstage (fun b' hb' => (Row.blog.inj hb').symm) (fun _ _ => .inl hstage.mine)
    (fun t _ => steady_of_eq fun u hu => updateBlog_congr hu.blog)
    fun _ _ => passes_ite fun _ => passes_done _

/-- Withdrawing a post keeps the discipline. -/
theorem passes_withdrawBlog {id user : Option ℤ} :
    Passes (.withdrawBlog id user) (withdrawBlog id user) none (fun t => t) [] s := by
  refine passes_orRefuse fun i hi => passes_orRefuse fun userId huser => ?_
  refine passes_lock rfl (fun _ _ => hi) (fun blog r hwithdrawn hr => ?_)
    fun t blog stored _ hblog hstored => ?_
  · obtain rfl := Option.some.inj hr
    simp only [orRefuse_some, Txn.pure_eq, Txn.ok_bind, huser, hwithdrawn, Option.some.injEq, ne_eq,
      ite_not]
    split <;> rfl
  · obtain rfl := Option.some.inj hstored
    split
    · exact passes_done _
    split
    · exact passes_done _
    · rename_i hshown
      refine passes_updateBlog ⟨List.mem_singleton.mpr rfl, fun b' hb' => ?_, fun blog' r hblog' _ => ?_⟩
      · exact Row.blog.inj (List.mem_singleton.mp hb')
      · obtain rfl := Option.some.inj (hblog.symm.trans hblog')
        exact hshown

/-- Editing a post keeps the discipline. -/
theorem passes_editBlog {id user : Option ℤ} {request : Option BlogEditRequest} :
    Passes (.editBlog id request user) (editBlog id request user) none (fun t => t) [] s := by
  refine passes_orRefuse fun i hi => passes_orRefuse fun edit _ => passes_orRefuse fun userId _ => ?_
  refine passes_lock rfl (fun _ _ => hi) (fun blog r hwithdrawn hr => ?_)
    fun t blog stored _ hblog hstored => ?_
  · obtain rfl := Option.some.inj hr
    simp only [Option.filter_some, hwithdrawn]
    rfl
  · obtain ⟨hstored, hvisible⟩ := Option.filter_eq_some_iff.mp hstored
    obtain rfl := Option.some.inj hstored
    have hstage := stage_of_visible (c := .editBlog id request user) hblog (of_decide_eq_true hvisible)
    split
    · exact passes_done _
    split
    · exact passes_done _
    split
    · exact passes_done _
    · exact passes_updateBlog hstage

/-- The write to the likes is the last command. -/
theorem passes_likes {w : Tables → Tables} {userId : ℤ} {score : Option ℕ} (hstage : Stage c b held s)
    (hcall : ∀ blog, ∃ r, c.onWithdrawn blog = some r) :
    Passes c (.send (fun likes => ((), fun b' u => if b' = b ∧ u = userId then score else likes b' u))
      fun _ => pure none) snap w held s := by
  refine passes_send hstage hcall (fun likes b' hb' => ?_) fun _ _ _ => passes_done _
  funext u
  exact if_neg fun h => hb' h.1

/-- Liking a post keeps the discipline. -/
theorem passes_likeBlog {id user : Option ℤ} {now : ℕ} :
    Passes (.likeBlog id user now) (likeBlog id user now) none (fun t => t) [] s := by
  refine passes_orRefuse fun i hi => ?_
  refine passes_lock rfl (fun _ _ => hi) (fun blog r hwithdrawn hr => ?_)
    fun t blog stored _ hblog hstored => ?_
  · obtain rfl := Option.some.inj hr
    simp only [Option.filter_some, hwithdrawn]
    rfl
  · obtain ⟨hstored, hvisible⟩ := Option.filter_eq_some_iff.mp hstored
    obtain rfl := Option.some.inj hstored
    have hstage := stage_of_visible (c := .likeBlog id user now) hblog (of_decide_eq_true hvisible)
    cases user with
    | none => exact passes_done _
    | some userId =>
      dsimp only
      rw [Txn.command_bind]
      refine passes_send hstage (fun _ => ⟨_, rfl⟩) (fun _ _ _ => rfl) fun u score hu => ?_
      have hstage' := hstage.rely hu
      split
      · rw [like_bind]
        refine passes_exec hstage' (fun b' hb' => (Row.blog.inj hb').symm)
          (fun _ _ => .inl hstage'.mine)
          (fun v _ => steady_of_eq fun x hx => incrementLiked_congr hx.blog) fun v hv => ?_
        split
        · exact passes_done _
        split
        · exact passes_likes ((hstage'.rely hv).lock (fun b' hb' => (Row.blog.inj hb').symm) _)
            fun _ => ⟨_, rfl⟩
        · exact passes_done _
      · rw [unlike_bind]
        refine passes_exec hstage' (fun b' hb' => (Row.blog.inj hb').symm)
          (fun _ _ => .inl hstage'.mine)
          (fun v _ => steady_of_eq fun x hx => updateBlog_congr hx.blog) fun v hv => ?_
        split
        · exact passes_likes ((hstage'.rely hv).lock (fun b' hb' => (Row.blog.inj hb').symm) _)
            fun _ => ⟨_, rfl⟩
        · exact passes_done _

end writers

/-- **The writers keep the discipline.** -/
theorem content_disciplined : Disciplined contentSystem contentRegions Checked where
  admitted := contentSystem_admits
  effect hready h := effect_regions hready h
  confined h := h.confined
  throughout {c} _ _ := by
    cases c with
    | createComment => exact passes_createComment
    | createReply => exact passes_createReply
    | withdrawReply => exact passes_withdrawOwned .directReply
    | withdrawComment => exact passes_withdrawOwned .firstLevel
    | hideComment => exact passes_hideComment
    | hideReply => exact passes_hideReply
    | withdrawBlog => exact passes_withdrawBlog
    | editBlog => exact passes_editBlog
    | likeBlog => exact passes_likeBlog

end CampusHub.Content
