import Mathlib.Order.Fin.Basic
import Mathlib.Data.Prod.Lex
import Mathlib.Data.List.Pairwise
import Mathlib.Data.List.TakeWhile
import CampusHub.Foundations.Decimal
import CampusHub.Foundations.Maps

/-!
# Redis streams with consumer groups

* `StreamId` — two unsigned 64-bit integers in lexicographic order; `render` and `parse` are their
  text `ms-seq`, and `rangeBounds` is how `XRANGE` and `XPENDING` read one text as both ends of an
  interval (an incomplete `ms` names every entry of that millisecond).
* `EventStream` — entries in the order of their ids and the consumer groups that read them. Entries only
  ever get appended: there is no `XDEL` and no `XTRIM` here, so a pending id always has its entry.
* `append`, `deliver`, `claim`, `ack` — `XADD *`, `XREADGROUP COUNT 1 >`, `XCLAIM`, `XACK`.
* `Live` — the entry is still to be handled by a group: not delivered yet, or pending.

Each command has one lemma that says what it finds and what it changes (`append_eq_some`, `deliver_eq_some`,
`claim_eq_some`, `ack_groups`), and lemmas about what is pending after it. The notions that consumers reason
with follow: which ids a group has not acknowledged (`Unacked`), and which entries are live (`live_append`,
`live_deliver`, `live_claim`, `live_ack`).

**Proof route.** A stream carries its well-formedness as a field: the ids rise, and every group was given an
initial part of them and has only such ids pending. So an id names one entry, the next delivery is the least
id above what was given, and no lemma has to assume order or uniqueness again.

**Not modelled.** Deleted and trimmed entries, the delivery counter of a pending entry, blocking reads, and
`XAUTOCLAIM`.
-/

namespace CampusHub.Redis

open CampusHub.Foundations.Decimal CampusHub.Foundations.Maps

/-! ## Identifiers -/

/-- The id of a stream entry. -/
structure StreamId where
  ms : Fin (2 ^ 64)
  seq : Fin (2 ^ 64)
  deriving DecidableEq

namespace StreamId

/-- The id as a pair in lexicographic order. -/
def toPair (i : StreamId) : Fin (2 ^ 64) ×ₗ Fin (2 ^ 64) := toLex (i.ms, i.seq)

/-- An id is given by its two numbers. -/
theorem toPair_injective : Function.Injective toPair := by
  rintro ⟨a, b⟩ ⟨c, d⟩ h
  simpa [toPair] using h

instance : LinearOrder StreamId := LinearOrder.lift' toPair toPair_injective

/-- The milliseconds are compared first. -/
theorem lt_iff {a b : StreamId} : a < b ↔ a.ms < b.ms ∨ a.ms = b.ms ∧ a.seq < b.seq :=
  Prod.Lex.toLex_lt_toLex

/-- `0-0`. -/
def zero : StreamId := ⟨0, 0⟩

/-- The last id of all. -/
def last : StreamId := ⟨-1, -1⟩

/-- `streamIncrID`: the next id, if there is one. -/
def succ (i : StreamId) : Option StreamId :=
  if i.seq ≠ -1 then some ⟨i.ms, i.seq + 1⟩
  else if i.ms ≠ -1 then some ⟨i.ms + 1, 0⟩
  else none

/-- `streamDecrID`: the id before, if there is one. -/
def pred (i : StreamId) : Option StreamId :=
  if i.seq ≠ 0 then some ⟨i.ms, i.seq - 1⟩
  else if i.ms ≠ 0 then some ⟨i.ms - 1, -1⟩
  else none

/-- Only the largest number has none after it. -/
theorem lt_add_one {n : Fin (2 ^ 64)} (h : n ≠ -1) : n < n + 1 := by
  rw [Fin.lt_def, Fin.val_add]
  have hn : (n : ℕ) ≠ 2 ^ 64 - 1 := fun e => h (Fin.ext (by rw [e]; rfl))
  have h1 : ((1 : Fin (2 ^ 64)) : ℕ) = 1 := rfl
  rw [h1, Nat.mod_eq_of_lt (by omega)]
  omega

/-- The next id is above. -/
theorem lt_of_succ {i j : StreamId} (h : i.succ = some j) : i < j := by
  unfold succ at h
  split_ifs at h with hs hm
  · rw [← Option.some.inj h, lt_iff]; exact .inr ⟨rfl, lt_add_one hs⟩
  · rw [← Option.some.inj h, lt_iff]; exact .inl (lt_add_one hm)

/-- The next id is the least one above. -/
theorem succ_le_iff {i j : StreamId} (h : i.succ = some j) (x : StreamId) : j ≤ x ↔ i < x := by
  rw [← not_lt, lt_iff, lt_iff]
  unfold succ at h
  split_ifs at h with hs hm
  · obtain rfl := Option.some.inj h
    have hlt := lt_add_one hs
    have hval : ((i.seq + 1 : Fin (2 ^ 64)) : ℕ) = i.seq + 1 := by
      rw [Fin.lt_def] at hlt
      rw [Fin.val_add] at hlt ⊢
      exact Nat.mod_eq_of_lt (by have hone : ((1 : Fin (2 ^ 64)) : ℕ) = 1 := rfl; omega)
    simp only [Fin.lt_def, Fin.ext_iff, hval]
    omega
  · obtain rfl := Option.some.inj h
    have hlt := lt_add_one hm
    have hval : ((i.ms + 1 : Fin (2 ^ 64)) : ℕ) = i.ms + 1 := by
      rw [Fin.lt_def] at hlt
      rw [Fin.val_add] at hlt ⊢
      exact Nat.mod_eq_of_lt (by have hone : ((1 : Fin (2 ^ 64)) : ℕ) = 1 := rfl; omega)
    have hseq : (i.seq : ℕ) = 2 ^ 64 - 1 := by
      rw [not_not] at hs
      rw [hs]
      rfl
    have hx := x.seq.isLt
    simp only [Fin.lt_def, Fin.ext_iff, hval, hseq, Fin.val_zero]
    omega

/-- No id is above the last one. -/
theorem le_last (i : StreamId) : i ≤ last := by
  have hms := i.ms.isLt
  have hseq := i.seq.isLt
  have hone : ((-1 : Fin (2 ^ 64)) : ℕ) = 2 ^ 64 - 1 := rfl
  rw [← not_lt, lt_iff]
  unfold last
  simp only [Fin.lt_def, Fin.ext_iff, hone]
  omega

/-- No id is below `0-0`. -/
theorem zero_le (i : StreamId) : zero ≤ i := by
  rw [← not_lt, lt_iff]
  unfold zero
  simp

/-- The id that `XADD *` gives an entry at clock time `now` (in milliseconds) in a stream whose last
id is `i`; none when the ids are used up. -/
def next (now : ℕ) (i : StreamId) : Option StreamId :=
  if i.ms < Fin.ofNat (2 ^ 64) now then some ⟨Fin.ofNat (2 ^ 64) now, 0⟩ else i.succ

/-- Only the last id of all has no next one. -/
theorem exists_next {i : StreamId} (h : i ≠ last) (now : ℕ) : ∃ j, next now i = some j := by
  rw [← Option.isSome_iff_exists]
  unfold next succ
  split_ifs with hnow hs hm
  · rfl
  · rfl
  · rfl
  · rw [not_not] at hs hm
    obtain ⟨ms, seq⟩ := i
    subst hs hm
    exact absurd rfl h

/-- A new entry gets an id above all others. -/
theorem lt_of_next {now : ℕ} {i j : StreamId} (h : next now i = some j) : i < j := by
  unfold next at h
  split_ifs at h with hn
  · rw [← Option.some.inj h, lt_iff]; exact .inl hn
  · exact lt_of_succ h

/-! ## Texts of ids -/

/-- The text `ms-seq`. -/
def render (i : StreamId) : String := decimal i.ms ++ "-" ++ decimal i.seq

/-- The text of an id: its two numbers, with `-` between them. -/
theorem toList_render (i : StreamId) :
    i.render.toList = (decimal i.ms).toList ++ '-' :: (decimal i.seq).toList := by
  simp [render]

/-- The text up to the first `-`, and the text after it. -/
theorem span_render (i : StreamId) :
    i.render.toList.takeWhile (· ≠ '-') = (decimal i.ms).toList ∧
      i.render.toList.dropWhile (· ≠ '-') = '-' :: (decimal i.seq).toList := by
  have h : ∀ c ∈ (decimal i.ms).toList, (decide (c ≠ '-')) = true := by
    intro c hc
    exact decide_eq_true (ne_of_isDigit (isDigit_of_mem_decimal hc) (by decide))
  rw [toList_render, List.takeWhile_append_of_pos h, List.dropWhile_append_of_pos h]
  simp

/-- Different ids have different texts. -/
theorem render_injective : Function.Injective render := by
  rintro ⟨a, b⟩ ⟨c, d⟩ h
  have h1 := (span_render ⟨a, b⟩).1
  have h2 := (span_render ⟨a, b⟩).2
  rw [h] at h1 h2
  rw [(span_render _).1, String.toList_inj, decimal_inj] at h1
  rw [(span_render _).2, List.cons.injEq, String.toList_inj, decimal_inj] at h2
  rw [StreamId.mk.injEq]
  exact ⟨Fin.ext h1.symm, Fin.ext h2.2.symm⟩

/-- Two texts of ids are the same exactly when the ids are. -/
@[simp] theorem render_inj {i j : StreamId} : i.render = j.render ↔ i = j :=
  render_injective.eq_iff

/-- A text as an id; `missing` stands for the sequence part of an incomplete id. -/
def parseStrict (missing : Fin (2 ^ 64)) (s : String) : Option StreamId :=
  let buf := s.toList.takeWhile (· ≠ '\x00')
  if 127 < byteLength s then none
  else
    match buf.dropWhile (· ≠ '-') with
    | [] => (string2ull buf).map fun ms => ⟨ms, missing⟩
    | _ :: seq =>
      match string2ull (buf.takeWhile (· ≠ '-')), string2ull seq with
      | some ms, some seq => some ⟨ms, seq⟩
      | _, _ => none

/-- As `parseStrict`, with `-` for the first and `+` for the last id. -/
def parse (missing : Fin (2 ^ 64)) (s : String) : Option StreamId :=
  if s = "-" then some zero else if s = "+" then some last else parseStrict missing s

/-- One text as both ends of an interval; `(` in front leaves the ends out. -/
def rangeBounds (s : String) : Option (StreamId × StreamId) :=
  match s.toList with
  | '(' :: c :: cs =>
    match (parseStrict 0 (String.ofList (c :: cs))).bind succ,
        (parseStrict (-1) (String.ofList (c :: cs))).bind pred with
    | some a, some b => some (a, b)
    | _, _ => none
  | _ =>
    match parse 0 s, parse (-1) s with
    | some a, some b => some (a, b)
    | _, _ => none

/-- The text of an id passes the length check of an id. -/
theorem byteLength_render_le (i : StreamId) : byteLength i.render ≤ 127 := by
  have h : ∀ n : Fin (2 ^ 64), byteLength (decimal n) ≤ 20 := fun n =>
    byteLength_decimal_le (by decide) (n.isLt.trans (by norm_num))
  have h1 := h i.ms
  have h2 := h i.seq
  have h3 : byteLength "-" = 1 := by decide
  rw [render, byteLength_append, byteLength_append, h3]
  omega

/-- The text of an id is read back, whatever stands for a missing sequence part. -/
@[simp] theorem parseStrict_render (missing : Fin (2 ^ 64)) (i : StreamId) :
    parseStrict missing i.render = some i := by
  have hdash : ∀ c ∈ i.render.toList, (decide (c ≠ '\x00')) = true := by
    intro c hc
    rw [toList_render, List.mem_append, List.mem_cons] at hc
    rcases hc with hc | rfl | hc
    · exact decide_eq_true (ne_of_isDigit (isDigit_of_mem_decimal hc) (by decide))
    · decide
    · exact decide_eq_true (ne_of_isDigit (isDigit_of_mem_decimal hc) (by decide))
  unfold parseStrict
  simp only [List.takeWhile_eq_self_iff.mpr hdash, not_lt.mpr (byteLength_render_le i), if_false,
    (span_render i).1, (span_render i).2, string2ull_decimal]

/-- The text of an id has three characters or more, so it is neither `-` nor `+`. -/
theorem render_ne_of_length {i : StreamId} {s : String} (h : s.toList.length ≤ 1) :
    i.render ≠ s := by
  rintro rfl
  have h1 := List.length_pos_iff.mpr (toList_decimal_ne_nil i.ms)
  rw [toList_render] at h
  simp at h
  omega

/-- The text of an id is read back. -/
@[simp] theorem parse_render (missing : Fin (2 ^ 64)) (i : StreamId) :
    parse missing i.render = some i := by
  unfold parse
  rw [if_neg (render_ne_of_length (by decide)), if_neg (render_ne_of_length (by decide)),
    parseStrict_render]

/-- The text of an id names that id alone. -/
@[simp] theorem rangeBounds_render (i : StreamId) : rangeBounds i.render = some (i, i) := by
  obtain ⟨c, cs, hcs, hdig, -⟩ := decimal_cons i.ms
  have hp : c ≠ '(' := ne_of_isDigit (hdig c List.mem_cons_self) (by decide)
  unfold rangeBounds
  split
  · rename_i heq
    rw [toList_render, hcs] at heq
    exact absurd (List.cons.inj heq).1 hp
  · simp

end StreamId

/-! ## Streams -/

/-- The field-value pairs of an entry. -/
abbrev Fields := List (String × String)

instance lawfulBEq_field : LawfulBEq (String × String) := inferInstance

/-- A pending entry: who owns it, and when it was last delivered. -/
structure Pending where
  consumer : String
  deliveredAt : ℕ
  deriving DecidableEq

/-- A consumer group: the id up to which entries are delivered, and the entries delivered and not
acknowledged. -/
structure Group where
  lastDelivered : StreamId
  pending : FiniteMap StreamId Pending

/-- What holds of a group of a stream with these entries and this last id. -/
structure Group.Fits (entries : List (StreamId × Fields)) (lastId : StreamId) (g : Group) :
    Prop where
  delivered_le : g.lastDelivered ≤ lastId
  pending_mem : ∀ {id p}, g.pending.lookup id = some p →
    id ≤ g.lastDelivered ∧ ∃ fs, (id, fs) ∈ entries

/-- A stream: entries in the order of their ids, the last id given out, the groups. -/
structure EventStream where
  entries : List (StreamId × Fields)
  lastId : StreamId
  groups : FiniteMap String Group
  sorted : entries.Pairwise fun a b => a.1 < b.1
  bounded : ∀ e ∈ entries, e.1 ≤ lastId
  fits : ∀ {name g}, groups.lookup name = some g → g.Fits entries lastId

namespace EventStream

/-- The stream that `XADD` and `XGROUP CREATE … MKSTREAM` create. -/
def empty : EventStream where
  entries := []
  lastId := .zero
  groups := ∅
  sorted := List.Pairwise.nil
  bounded := by simp
  fits := by simp

variable (s : EventStream)

/-- The entry with this id. -/
def lookup (id : StreamId) : Option Fields := (s.entries.find? fun e => e.1 = id).map Prod.snd

/-- `XRANGE` between two ids. -/
def range (a b : StreamId) : List (StreamId × Fields) :=
  s.entries.filter fun e => a ≤ e.1 ∧ e.1 ≤ b

/-- `XRANGE key t t`; none when `t` is no id. -/
def xrange (t : String) : Option (List (StreamId × Fields)) :=
  (StreamId.rangeBounds t).map fun (a, b) => s.range a b

/-- The pending entry of a group with this id. -/
def pendingOf (name : String) (id : StreamId) : Option Pending :=
  (s.groups.lookup name).bind fun g => g.pending.lookup id

/-- The pending entries of a group between two ids, in order. -/
def pendingRange (name : String) (a b : StreamId) : List (StreamId × Pending) :=
  (s.range a b).filterMap fun e => (s.pendingOf name e.1).map fun p => (e.1, p)

/-- `XPENDING key name t t 1`; none when `t` is no id. -/
def xpending (name t : String) : Option (List (StreamId × Pending)) :=
  (StreamId.rangeBounds t).map fun (a, b) => (s.pendingRange name a b).take 1

/-- `XPENDING key name t + count`; none when there is no such group or `t` is no id. -/
def xpendingFrom (name t : String) (count : ℕ) : Option (List (StreamId × Pending)) := do
  let _ ← s.groups.lookup name
  let a ← StreamId.parse 0 t
  pure ((s.pendingRange name a .last).take count)

/-- `XADD key * fields` at clock time `now`; none when the ids are used up. -/
def append (now : ℕ) (fields : Fields) : Option (StreamId × EventStream) :=
  match h : StreamId.next now s.lastId with
  | none => none
  | some id => some (id, {
      entries := s.entries ++ [(id, fields)]
      lastId := id
      groups := s.groups
      sorted := by
        rw [List.pairwise_append]
        refine ⟨s.sorted, List.pairwise_singleton _ _, fun a ha b hb => ?_⟩
        rw [List.mem_singleton] at hb
        subst hb
        exact lt_of_le_of_lt (s.bounded a ha) (StreamId.lt_of_next h)
      bounded := by
        intro e he
        rw [List.mem_append, List.mem_singleton] at he
        rcases he with he | rfl
        · exact (s.bounded e he).trans (StreamId.lt_of_next h).le
        · exact le_rfl
      fits := fun hg =>
        { delivered_le := (s.fits hg).delivered_le.trans (StreamId.lt_of_next h).le
          pending_mem := fun hp => by
            obtain ⟨h1, fs, h2⟩ := (s.fits hg).pending_mem hp
            exact ⟨h1, fs, List.mem_append_left _ h2⟩ } })

/-- The stream with one group replaced. -/
def setGroup (name : String) (g : Group) (hg : g.Fits s.entries s.lastId) : EventStream :=
  { s with
    groups := s.groups.insert name g
    fits := by
      intro name' g' h
      rw [lookup_insert_eq] at h
      split at h
      · rw [Option.some.injEq] at h; exact h ▸ hg
      · exact s.fits h }

/-- `XGROUP CREATE key name 0-0`; none when the group exists. -/
def createGroup (name : String) : Option EventStream :=
  match s.groups.lookup name with
  | some _ => none
  | none => some (s.setGroup name ⟨.zero, ∅⟩
      { delivered_le := by
          rw [← not_lt, StreamId.lt_iff]
          simp [StreamId.zero]
        pending_mem := by simp })

/-- The first entry that a group has not been given. -/
def firstNew (g : Group) : Option (StreamId × Fields) :=
  s.entries.find? fun e => g.lastDelivered < e.1

/-- What a group is given next is an entry that it was not given. -/
theorem firstNew_mem {g : Group} {e : StreamId × Fields} (h : s.firstNew g = some e) :
    e ∈ s.entries ∧ g.lastDelivered < e.1 :=
  ⟨List.mem_of_find?_eq_some h, by simpa using List.find?_some h⟩

/-- `XREADGROUP GROUP name consumer COUNT 1 STREAMS key >` at clock time `now`. -/
def deliver (now : ℕ) (name consumer : String) : Option ((StreamId × Fields) × EventStream) :=
  match hg : s.groups.lookup name with
  | none => none
  | some g =>
    match he : s.firstNew g with
    | none => none
    | some e => some (e, s.setGroup name ⟨e.1, g.pending.insert e.1 ⟨consumer, now⟩⟩
        { delivered_le := s.bounded e (s.firstNew_mem he).1
          pending_mem := by
            intro id p hp
            simp only [lookup_insert_eq] at hp
            split at hp
            · rename_i h; subst h; exact ⟨le_rfl, e.2, (s.firstNew_mem he).1⟩
            · obtain ⟨h1, h2⟩ := (s.fits hg).pending_mem hp
              exact ⟨h1.trans (s.firstNew_mem he).2.le, h2⟩ })

/-- `XCLAIM key name consumer idle id` at clock time `now`: the entry goes to `consumer` when it is
pending and was delivered at least `idle` milliseconds ago. -/
def claim (now idle : ℕ) (name consumer : String) (id : StreamId) : Option (Fields × EventStream) :=
  match hg : s.groups.lookup name with
  | none => none
  | some g =>
    match hp : g.pending.lookup id, s.lookup id with
    | some p, some fields =>
      if now - p.deliveredAt < idle then none
      else some (fields, s.setGroup name ⟨g.lastDelivered, g.pending.insert id ⟨consumer, now⟩⟩
        { delivered_le := (s.fits hg).delivered_le
          pending_mem := by
            intro id' p' hp'
            simp only [lookup_insert_eq] at hp'
            split at hp'
            · rename_i h; subst h; exact (s.fits hg).pending_mem hp
            · exact (s.fits hg).pending_mem hp' })
    | _, _ => none

/-- `XACK key name id`. -/
def ack (name : String) (id : StreamId) : EventStream :=
  match hg : s.groups.lookup name with
  | none => s
  | some g => s.setGroup name ⟨g.lastDelivered, g.pending.erase id⟩
      { delivered_le := (s.fits hg).delivered_le
        pending_mem := by
          intro id' p hp
          simp only [lookup_erase_eq] at hp
          split at hp
          · cases hp
          · exact (s.fits hg).pending_mem hp }

/-- The entry is still to be handled by the group: not delivered yet, or pending. -/
def Live (name : String) (id : StreamId) : Prop :=
  ∃ g ∈ s.groups.lookup name,
    (s.lookup id).isSome ∧ (g.lastDelivered < id ∨ (g.pending.lookup id).isSome)

instance (name : String) (id : StreamId) : Decidable (s.Live name id) :=
  inferInstanceAs (Decidable (∃ g ∈ s.groups.lookup name, _))

/-! ### Reading entries -/

variable {s}

/-- An id names one entry. -/
theorem eq_of_id_eq {e e' : StreamId × Fields} (h : e ∈ s.entries) (h' : e' ∈ s.entries)
    (hid : e.1 = e'.1) : e = e' := by
  have hnodup : (s.entries.map Prod.fst).Nodup :=
    List.pairwise_map.mpr (s.sorted.imp fun h => h.ne)
  exact List.inj_on_of_nodup_map hnodup h h' hid

/-- Looking an id up finds the entry with that id. -/
theorem lookup_eq_some {id : StreamId} {fs : Fields} :
    s.lookup id = some fs ↔ (id, fs) ∈ s.entries := by
  unfold lookup
  constructor
  · intro h
    obtain ⟨e, he, rfl⟩ := Option.map_eq_some_iff.mp h
    have hid : e.1 = id := by simpa using List.find?_some he
    exact hid ▸ List.mem_of_find?_eq_some he
  · intro h
    obtain ⟨e, he⟩ : ∃ e, s.entries.find? (fun e => e.1 = id) = some e := by
      rw [← Option.isSome_iff_exists, List.find?_isSome]
      exact ⟨(id, fs), h, by simp⟩
    have hid : e.1 = id := by simpa using List.find?_some he
    have hmem := List.mem_of_find?_eq_some he
    have heq : e = (id, fs) := eq_of_id_eq hmem h hid
    rw [he, heq]
    rfl

/-- An id is found exactly when an entry has it. -/
theorem lookup_isSome {id : StreamId} : (s.lookup id).isSome ↔ ∃ fs, (id, fs) ∈ s.entries := by
  rw [Option.isSome_iff_exists]
  exact exists_congr fun fs => lookup_eq_some

/-- The entries of an interval. -/
theorem mem_range {a b : StreamId} {e : StreamId × Fields} :
    e ∈ s.range a b ↔ e ∈ s.entries ∧ a ≤ e.1 ∧ e.1 ≤ b := by
  simp [range]

/-- Ids are different, so at most one entry has a given one. -/
theorem filter_id_eq {l : List (StreamId × Fields)} (hl : l.Pairwise fun a b => a.1 < b.1)
    (id : StreamId) : l.filter (fun e => e.1 = id) = (l.find? fun e => e.1 = id).toList := by
  induction l with
  | nil => rfl
  | cons e l ih =>
    rw [List.pairwise_cons] at hl
    by_cases he : e.1 = id
    · have htail : l.filter (fun e => e.1 = id) = [] := by
        rw [List.filter_eq_nil_iff]
        intro x hx
        have := (hl.1 x hx).ne'
        simpa [← he] using this
      rw [List.filter_cons_of_pos (by simpa using he), List.find?_cons_of_pos (by simpa using he),
        htail]
      rfl
    · rw [List.filter_cons_of_neg (by simpa using he), List.find?_cons_of_neg (by simpa using he),
        ih hl.2]

/-- An interval of one id holds the entry with that id. -/
theorem range_self (id : StreamId) :
    s.range id id = ((s.lookup id).map fun fs => (id, fs)).toList := by
  have hfilter : s.range id id = s.entries.filter fun e => e.1 = id := by
    unfold range
    refine List.filter_congr fun e _ => ?_
    rw [decide_eq_decide]
    exact ⟨fun h => le_antisymm h.2 h.1, fun h => ⟨h.ge, h.le⟩⟩
  rw [hfilter, filter_id_eq s.sorted, lookup]
  cases h : s.entries.find? fun e => e.1 = id with
  | none => rfl
  | some e =>
    have hid : e.1 = id := by simpa using List.find?_some h
    simp [← hid]

/-- `XRANGE key id id` for the text of an id. -/
@[simp] theorem xrange_render (id : StreamId) :
    s.xrange id.render = some ((s.lookup id).map fun fs => (id, fs)).toList := by
  simp [xrange, range_self]

/-- A text that is the id of an entry selects that entry. -/
theorem eq_of_xrange_render {id : StreamId} {entry : StreamId × Fields}
    (h : s.xrange id.render = some [entry]) : entry.1 = id ∧ s.lookup id = some entry.2 := by
  rw [xrange_render, Option.some.injEq] at h
  cases hl : s.lookup id with
  | none =>
    rw [hl] at h
    cases h
  | some fs =>
    rw [hl, Option.map_some, Option.toList_some, List.cons.injEq] at h
    rw [← h.1]
    exact ⟨rfl, rfl⟩

/-- A pending entry is in the stream and was delivered. -/
theorem pendingOf_eq_some {name : String} {id : StreamId} {p : Pending}
    (h : s.pendingOf name id = some p) :
    ∃ g, s.groups.lookup name = some g ∧ g.pending.lookup id = some p ∧
      id ≤ g.lastDelivered ∧ (s.lookup id).isSome := by
  obtain ⟨g, hg, hp⟩ := Option.bind_eq_some_iff.mp h
  obtain ⟨hle, hmem⟩ := (s.fits hg).pending_mem hp
  exact ⟨g, hg, hp, hle, lookup_isSome.mpr hmem⟩

/-- The pending entries between two ids, and all of them. -/
theorem mem_pendingRange {name : String} {a b id : StreamId} {p : Pending} :
    (id, p) ∈ s.pendingRange name a b ↔ s.pendingOf name id = some p ∧ a ≤ id ∧ id ≤ b := by
  unfold pendingRange
  rw [List.mem_filterMap]
  constructor
  · rintro ⟨e, he, hp⟩
    obtain ⟨q, hq, heq⟩ := Option.map_eq_some_iff.mp hp
    obtain ⟨rfl, rfl⟩ := Prod.mk.inj heq
    exact ⟨hq, (mem_range.mp he).2⟩
  · rintro ⟨hp, hrange⟩
    obtain ⟨-, -, -, -, hentry⟩ := pendingOf_eq_some hp
    obtain ⟨fields, hfields⟩ := lookup_isSome.mp hentry
    refine ⟨(id, fields), mem_range.mpr ⟨hfields, hrange⟩, ?_⟩
    rw [hp]
    rfl

/-- They come in the order of their ids. -/
theorem sorted_pendingRange (name : String) (a b : StreamId) :
    ((s.pendingRange name a b).map Prod.fst).Pairwise (· < ·) := by
  unfold pendingRange range
  rw [List.pairwise_map, List.pairwise_filterMap]
  refine (s.sorted.filter _).imp ?_
  intro e e' hlt q hq q' hq'
  obtain ⟨-, -, rfl⟩ := Option.map_eq_some_iff.mp hq
  obtain ⟨-, -, rfl⟩ := Option.map_eq_some_iff.mp hq'
  exact hlt

/-- `XPENDING key name id id 1` for the text of an id. -/
@[simp] theorem xpending_render (name : String) (id : StreamId) :
    s.xpending name id.render = some ((s.pendingOf name id).map fun p => (id, p)).toList := by
  have hrange : s.pendingRange name id id = ((s.pendingOf name id).map fun p => (id, p)).toList := by
    rw [pendingRange, range_self]
    cases hp : s.pendingOf name id with
    | none => cases s.lookup id <;> simp [hp]
    | some p =>
      obtain ⟨-, -, -, -, hsome⟩ := pendingOf_eq_some hp
      obtain ⟨fs, hfs⟩ := Option.isSome_iff_exists.mp hsome
      simp [hfs, hp]
  simp only [xpending, StreamId.rangeBounds_render, Option.map_some, hrange]
  cases s.pendingOf name id <;> rfl

/-! ### What each command changes -/

/-- A group is no entry. -/
@[simp] theorem setGroup_entries {name : String} {g : Group} {hg} :
    (s.setGroup name g hg).entries = s.entries := rfl

/-- A group changes no id. -/
@[simp] theorem setGroup_lastId {name : String} {g : Group} {hg} :
    (s.setGroup name g hg).lastId = s.lastId := rfl

/-- The group is the one that was set. -/
@[simp] theorem setGroup_groups {name : String} {g : Group} {hg} :
    (s.setGroup name g hg).groups = s.groups.insert name g := rfl

variable {t : EventStream} {id : StreamId} {name : String}

/-- Streams with the same entries are read alike. -/
theorem lookup_congr (h : t.entries = s.entries) : t.lookup id = s.lookup id := by
  simp [lookup, h]

/-- `XADD` puts the entry at the end, under a new id above all others. -/
theorem append_eq_some {now : ℕ} {fs : Fields} (h : s.append now fs = some (id, t)) :
    s.lastId < id ∧ t.entries = s.entries ++ [(id, fs)] ∧ t.lastId = id ∧ t.groups = s.groups := by
  unfold append at h
  split at h
  · cases h
  · rename_i id' hid
    simp only [Option.some.injEq, Prod.mk.injEq] at h
    obtain ⟨rfl, rfl⟩ := h
    exact ⟨StreamId.lt_of_next hid, rfl, rfl, rfl⟩

/-- `XADD` gives the next id. -/
theorem next_of_append {now : ℕ} {fs : Fields} (h : s.append now fs = some (id, t)) :
    StreamId.next now s.lastId = some id := by
  unfold append at h
  split at h
  · cases h
  · rename_i id' hid
    rw [hid]
    simp only [Option.some.injEq, Prod.mk.injEq] at h
    rw [h.1]

/-- `XADD` is refused only when no id is left. -/
theorem append_isSome {now : ℕ} {fs : Fields} :
    (s.append now fs).isSome = (StreamId.next now s.lastId).isSome := by
  unfold append
  split <;> simp_all

/-- The id of a new entry was no entry's. -/
theorem lookup_of_append_self {now : ℕ} {fs : Fields} (h : s.append now fs = some (id, t)) :
    s.lookup id = none := by
  rw [Option.eq_none_iff_forall_not_mem]
  intro gs hgs
  exact absurd (s.bounded _ (lookup_eq_some.mp hgs)) (not_le.mpr (append_eq_some h).1)

/-- The new entry is found under its id; the others as before. -/
theorem lookup_append {now : ℕ} {fs : Fields} (h : s.append now fs = some (id, t))
    (id' : StreamId) : t.lookup id' = if id' = id then some fs else s.lookup id' := by
  obtain ⟨hlt, hent, -, -⟩ := append_eq_some h
  split
  · rename_i hid
    rw [lookup_eq_some, hent, hid]
    simp
  · rename_i hid
    ext gs
    rw [lookup_eq_some, lookup_eq_some, hent]
    simp [hid]

/-- The entries stay when one more is appended. -/
theorem lookup_append_of_some {now : ℕ} {fs fs' : Fields} {id' : StreamId}
    (h : s.append now fs = some (id, t)) (hold : s.lookup id' = some fs') :
    t.lookup id' = some fs' := by
  rw [lookup_append h, if_neg, hold]
  rintro rfl
  rw [lookup_of_append_self h] at hold
  cases hold

/-- `XADD` makes nothing pending. -/
theorem pendingOf_append {now : ℕ} {fs : Fields} (h : s.append now fs = some (id, t))
    (id' : StreamId) : t.pendingOf name id' = s.pendingOf name id' := by
  rw [pendingOf, (append_eq_some h).2.2.2, pendingOf]

/-- A new group has been given nothing. -/
theorem createGroup_of_new (h : s.groups.lookup name = none) :
    ∃ t, s.createGroup name = some t ∧ t.entries = s.entries ∧ t.lastId = s.lastId ∧
      t.groups = s.groups.insert name ⟨.zero, ∅⟩ := by
  unfold createGroup
  split
  · simp_all
  · exact ⟨_, rfl, rfl, rfl, rfl⟩

/-- A group reads the first entry it has not been given. -/
theorem deliver_eq_some {now : ℕ} {consumer : String} {e : StreamId × Fields}
    (h : s.deliver now name consumer = some (e, t)) :
    ∃ g, s.groups.lookup name = some g ∧ s.firstNew g = some e ∧ t.entries = s.entries ∧
      t.lastId = s.lastId ∧
      t.groups = s.groups.insert name ⟨e.1, g.pending.insert e.1 ⟨consumer, now⟩⟩ := by
  unfold deliver at h
  split at h
  · cases h
  · rename_i g hg
    split at h
    · cases h
    · rename_i e' he'
      simp only [Option.some.injEq, Prod.mk.injEq] at h
      obtain ⟨rfl, rfl⟩ := h
      exact ⟨g, hg, he', rfl, rfl, rfl⟩

/-- A claim changes the owner of a pending entry and nothing else. -/
theorem claim_eq_some {now idle : ℕ} {consumer : String} {fs : Fields}
    (h : s.claim now idle name consumer id = some (fs, t)) :
    ∃ g p, s.groups.lookup name = some g ∧ g.pending.lookup id = some p ∧ s.lookup id = some fs ∧
      t.entries = s.entries ∧ t.lastId = s.lastId ∧
      t.groups = s.groups.insert name ⟨g.lastDelivered, g.pending.insert id ⟨consumer, now⟩⟩ := by
  unfold claim at h
  split at h
  · cases h
  · rename_i g hg
    split at h
    · rename_i p fs' hp hfs
      split at h
      · cases h
      · simp only [Option.some.injEq, Prod.mk.injEq] at h
        obtain ⟨rfl, rfl⟩ := h
        exact ⟨g, p, hg, hp, hfs, rfl, rfl, rfl⟩
    · cases h

/-- An acknowledgement removes no entry. -/
@[simp] theorem ack_entries : (s.ack name id).entries = s.entries := by
  unfold ack; split <;> rfl

/-- An acknowledgement does not change the last id. -/
@[simp] theorem ack_lastId : (s.ack name id).lastId = s.lastId := by
  unfold ack; split <;> rfl

/-- An acknowledgement takes the entry out of the pending ones of its group. -/
theorem ack_groups {g : Group} (hg : s.groups.lookup name = some g) :
    (s.ack name id).groups = s.groups.insert name ⟨g.lastDelivered, g.pending.erase id⟩ := by
  unfold ack
  split
  · simp_all
  · simp_all

/-- After an acknowledgement every other entry is pending as before. -/
theorem pendingOf_ack (id' : StreamId) :
    (s.ack name id).pendingOf name id' = if id' = id then none else s.pendingOf name id' := by
  cases hg : s.groups.lookup name with
  | none =>
    have : s.ack name id = s := by unfold ack; split <;> simp_all
    rw [this]
    simp [pendingOf, hg]
  | some g => simp [pendingOf, ack_groups hg, hg, lookup_erase_eq]

/-- After a delivery every other entry is pending as before. -/
theorem pendingOf_deliver {now : ℕ} {consumer : String} {e : StreamId × Fields}
    (h : s.deliver now name consumer = some (e, t)) (id' : StreamId) :
    t.pendingOf name id' = if id' = e.1 then some ⟨consumer, now⟩ else s.pendingOf name id' := by
  obtain ⟨g, hg, -, -, -, hgroups⟩ := deliver_eq_some h
  simp [pendingOf, hgroups, hg, lookup_insert_eq]

/-- After a claim every other entry is pending as before. -/
theorem pendingOf_claim {now idle : ℕ} {consumer : String} {fs : Fields}
    (h : s.claim now idle name consumer id = some (fs, t)) (id' : StreamId) :
    t.pendingOf name id' = if id' = id then some ⟨consumer, now⟩ else s.pendingOf name id' := by
  obtain ⟨g, p, hg, -, -, -, -, hgroups⟩ := claim_eq_some h
  simp [pendingOf, hgroups, hg, lookup_insert_eq]

/-! ### Ids that a group has not acknowledged -/

/-- The group has not acknowledged the id: it is not given out yet, or pending. -/
def Unacked (s : EventStream) (name : String) (id : StreamId) : Prop :=
  ∃ g, s.groups.lookup name = some g ∧ (g.lastDelivered < id ∨ ∃ p, g.pending.lookup id = some p)

/-- What is pending is not acknowledged. -/
theorem unacked_of_pendingOf {p : Pending} (h : s.pendingOf name id = some p) :
    s.Unacked name id := by
  obtain ⟨g, hg, hp, -, -⟩ := pendingOf_eq_some h
  exact ⟨g, hg, .inr ⟨p, hp⟩⟩

/-- What is acknowledged is read off the groups. -/
theorem unacked_congr (h : t.groups = s.groups) : t.Unacked name id ↔ s.Unacked name id := by
  rw [Unacked, Unacked, h]

/-- A delivery gives out ids that were not acknowledged. -/
theorem unacked_of_deliver {now : ℕ} {consumer : String} {e : StreamId × Fields}
    (h : s.deliver now name consumer = some (e, t)) (hid : t.Unacked name id) :
    s.Unacked name id := by
  obtain ⟨g, hg, hnew, -, -, hgroups⟩ := deliver_eq_some h
  obtain ⟨-, hlt⟩ := s.firstNew_mem hnew
  obtain ⟨g', hg', hopen⟩ := hid
  rw [hgroups, Finmap.lookup_insert, Option.some.injEq] at hg'
  subst hg'
  refine ⟨g, hg, ?_⟩
  rcases hopen with hopen | ⟨p, hp⟩
  · exact .inl (hlt.trans hopen)
  · rw [lookup_insert_eq] at hp
    split at hp
    · rename_i heq
      exact .inl (heq ▸ hlt)
    · exact .inr ⟨p, hp⟩

/-- A claim gives out an id that was pending. -/
theorem unacked_of_claim {now idle : ℕ} {consumer : String} {fs : Fields} {id' : StreamId}
    (h : s.claim now idle name consumer id' = some (fs, t)) (hid : t.Unacked name id) :
    s.Unacked name id := by
  obtain ⟨g, p, hg, hp, -, -, -, hgroups⟩ := claim_eq_some h
  obtain ⟨g', hg', hopen⟩ := hid
  rw [hgroups, Finmap.lookup_insert, Option.some.injEq] at hg'
  subst hg'
  refine ⟨g, hg, ?_⟩
  rcases hopen with hopen | ⟨q, hq⟩
  · exact .inl hopen
  · rw [lookup_insert_eq] at hq
    split at hq
    · rename_i heq
      exact .inr ⟨p, heq ▸ hp⟩
    · exact .inr ⟨q, hq⟩

/-- What is not acknowledged after an acknowledgement was not before, and is another id. -/
theorem unacked_of_ack {p : Pending} {id' : StreamId} (h : s.pendingOf name id' = some p)
    (hid : (s.ack name id').Unacked name id) : s.Unacked name id ∧ id ≠ id' := by
  obtain ⟨g, hg, -, hle, -⟩ := pendingOf_eq_some h
  obtain ⟨g', hg', hopen⟩ := hid
  rw [ack_groups hg, Finmap.lookup_insert, Option.some.injEq] at hg'
  subst hg'
  rcases hopen with hopen | ⟨q, hq⟩
  · exact ⟨⟨g, hg, .inl hopen⟩, fun heq => absurd hle (not_le.mpr (heq ▸ hopen))⟩
  · rw [lookup_erase_eq] at hq
    split at hq
    · cases hq
    · rename_i hne
      exact ⟨⟨g, hg, .inr ⟨q, hq⟩⟩, hne⟩

/-! ### Live entries -/

/-- An entry is live for a group: it is there, and not given out yet or pending. -/
theorem live_iff {g : Group} (hg : s.groups.lookup name = some g) :
    s.Live name id ↔
      (s.lookup id).isSome ∧ (g.lastDelivered < id ∨ (g.pending.lookup id).isSome) := by
  simp [Live, hg]

/-- A pending entry is live. -/
theorem live_of_pendingOf {p : Pending} (h : s.pendingOf name id = some p) : s.Live name id := by
  obtain ⟨g, hg, hp, -, hsome⟩ := pendingOf_eq_some h
  exact (live_iff hg).mpr ⟨hsome, .inr (by simp [hp])⟩

/-- A new entry is live, and no other entry's being live changes. -/
theorem live_append {now : ℕ} {fs : Fields} (h : s.append now fs = some (id, t)) {g : Group}
    (hg : s.groups.lookup name = some g) (id' : StreamId) :
    t.Live name id' ↔ id' = id ∨ s.Live name id' := by
  obtain ⟨hlt, -, -, hgroups⟩ := append_eq_some h
  have hg' : t.groups.lookup name = some g := by rw [hgroups, hg]
  rw [live_iff hg', live_iff hg, lookup_append h]
  by_cases hid : id' = id
  · subst hid
    have := lt_of_le_of_lt (s.fits hg).delivered_le hlt
    simp [this]
  · simp [hid]

/-- A group is given the entries in the order of their ids. -/
theorem le_of_firstNew {g : Group} {e e' : StreamId × Fields} (h : s.firstNew g = some e)
    (he' : e' ∈ s.entries) (hlt : g.lastDelivered < e'.1) : e.1 ≤ e'.1 := by
  obtain ⟨-, as, bs, hsplit, has⟩ := List.find?_eq_some_iff_append.mp h
  have hsorted := s.sorted
  rw [hsplit] at he' hsorted
  rw [List.mem_append, List.mem_cons] at he'
  rcases he' with h1 | rfl | h1
  · exact absurd hlt (by simpa using has e' h1)
  · exact le_rfl
  · have := (List.pairwise_append.mp hsorted).2.1
    exact ((List.pairwise_cons.mp this).1 e' h1).le

/-- A delivery keeps which entries are live. -/
theorem live_deliver {now : ℕ} {consumer : String} {e : StreamId × Fields}
    (h : s.deliver now name consumer = some (e, t)) (id' : StreamId) :
    t.Live name id' ↔ s.Live name id' := by
  obtain ⟨g, hg, hnew, hent, -, hgroups⟩ := deliver_eq_some h
  have hg' : t.groups.lookup name = some ⟨e.1, g.pending.insert e.1 ⟨consumer, now⟩⟩ := by
    rw [hgroups, Finmap.lookup_insert]
  obtain ⟨hmem, hlt⟩ := s.firstNew_mem hnew
  rw [live_iff hg', live_iff hg, lookup_congr hent]
  refine and_congr_right fun hsome => ?_
  obtain ⟨fs, hfs⟩ := lookup_isSome.mp hsome
  rw [lookup_insert_eq]
  by_cases hid : id' = e.1
  · subst hid; simp [hlt]
  · simp only [hid, if_false]
    refine or_congr_left ⟨fun h1 => hlt.trans h1, fun h1 => ?_⟩
    exact lt_of_le_of_ne (le_of_firstNew hnew hfs h1) (Ne.symm hid)

/-- A claim keeps which entries are live. -/
theorem live_claim {now idle : ℕ} {consumer : String} {fs : Fields}
    (h : s.claim now idle name consumer id = some (fs, t)) (id' : StreamId) :
    t.Live name id' ↔ s.Live name id' := by
  obtain ⟨g, p, hg, hp, -, hent, -, hgroups⟩ := claim_eq_some h
  have hg' : t.groups.lookup name = some ⟨g.lastDelivered, g.pending.insert id ⟨consumer, now⟩⟩ := by
    rw [hgroups, Finmap.lookup_insert]
  rw [live_iff hg', live_iff hg, lookup_congr hent, lookup_insert_eq]
  by_cases hid : id' = id
  · subst hid; simp [hp]
  · simp [hid]

/-- An acknowledged entry is no longer live; every other one is as before. -/
theorem live_ack {p : Pending} (h : s.pendingOf name id = some p) (id' : StreamId) :
    (s.ack name id).Live name id' ↔ s.Live name id' ∧ id' ≠ id := by
  obtain ⟨g, hg, hp, hle, -⟩ := pendingOf_eq_some h
  have hg' : (s.ack name id).groups.lookup name = some ⟨g.lastDelivered, g.pending.erase id⟩ := by
    rw [ack_groups hg, Finmap.lookup_insert]
  rw [live_iff hg', live_iff hg, lookup_congr ack_entries, lookup_erase_eq]
  by_cases hid : id' = id
  · subst hid; simp [not_lt.mpr hle]
  · simp [hid]

end EventStream

end CampusHub.Redis
