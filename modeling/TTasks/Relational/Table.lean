import Mathlib.Data.List.Nodup
import Mathlib.Data.Prod.Lex

/-!
# Tables with a primary key

A table is the list of its rows in the order they were inserted, no two of them with one key. The
statements are those of SQL: a select by key, an insert that refuses a key that is taken, an upsert
(`INSERT … ON CONFLICT DO UPDATE`), a delete by a condition, and `ORDER BY`. A loop of statements
stops at the first one that fails; `foldlM_ok` is its invariant rule. Calls that come one after
another, each with an outcome, are a session; `session_simulates` carries a simulation over it.
-/

namespace TTasks.Relational

/-- Rows with distinct keys. -/
structure Table {ρ κ : Type} (key : ρ → κ) where
  rows : List ρ
  keys_nodup : (rows.map key).Nodup

namespace Table

variable {ρ κ : Type} {key : ρ → κ}

/-- `CREATE TABLE`. -/
def empty : Table key := ⟨[], .nil⟩

/-- Every row changed, its key apart. -/
def map (t : Table key) (f : ρ → ρ) (same : ∀ r, key (f r) = key r) : Table key where
  rows := t.rows.map f
  keys_nodup := by
    have keys : key ∘ f = key := funext same
    rw [List.map_map, keys]
    exact t.keys_nodup

/-- `DELETE FROM … WHERE p`. -/
def deleteWhere (t : Table key) (p : ρ → Bool) : Table key where
  rows := t.rows.filter fun r => !p r
  keys_nodup := (List.filter_sublist.map key).nodup t.keys_nodup

/-- `DELETE .. WHERE` keeps the other rows. -/
@[simp] theorem deleteWhere_rows (t : Table key) (p : ρ → Bool) :
    (t.deleteWhere p).rows = t.rows.filter fun r => !p r := rfl

variable [DecidableEq κ]

/-- `SELECT * FROM … WHERE key = k`, `fetchone`. -/
def find? (t : Table key) (k : κ) : Option ρ := t.rows.find? fun r => key r = k

/-- Whether a row has the key. -/
def contains (t : Table key) (k : κ) : Bool := t.rows.any fun r => key r = k

/-- `INSERT`; nothing for a key that is taken. -/
def insert (t : Table key) (r : ρ) : Option (Table key) :=
  if new : key r ∈ t.rows.map key then none
  else some
    { rows := t.rows ++ [r]
      keys_nodup := by
        rw [List.map_append, List.map_singleton]
        exact List.nodup_append.mpr ⟨t.keys_nodup, by simp, by
          rintro k old _ (_ | _) rfl
          · exact new old
          · contradiction⟩ }

/-- `INSERT … ON CONFLICT(key) DO UPDATE SET`: the row that has the key is updated in its place,
else the new row comes last. -/
def upsert (t : Table key) (r : ρ) (update : ρ → ρ) (same : ∀ old, key (update old) = key old) :
    Table key :=
  if old : key r ∈ t.rows.map key then
    { rows := t.rows.map fun old => if key old = key r then update old else old
      keys_nodup := by
        rw [List.map_map]
        convert t.keys_nodup using 2
        funext old
        rw [Function.comp_apply]
        split
        · exact same old
        · rfl }
  else
    { rows := t.rows ++ [r]
      keys_nodup := by
        rw [List.map_append, List.map_singleton]
        exact List.nodup_append.mpr ⟨t.keys_nodup, by simp, by
          rintro k taken _ (_ | _) rfl
          · exact old taken
          · contradiction⟩ }

/-- `d[key] = r`: in the place of the row that has the key, else last. -/
def put (t : Table key) (r : ρ) : Table key :=
  t.upsert r (fun old => if key old = key r then r else old) fun old => by
    split
    · rename_i same
      exact same.symm
    · rfl

/-! ## Reading by key -/

/-- A lookup finds the row of that key and no other. -/
theorem find?_eq_some {t : Table key} {k : κ} {r : ρ} :
    t.find? k = some r ↔ r ∈ t.rows ∧ key r = k := by
  constructor
  · intro h
    exact ⟨List.mem_of_find?_eq_some h, by simpa using List.find?_some h⟩
  · rintro ⟨mem, rfl⟩
    cases h : t.find? (key r) with
    | none => simpa using List.find?_eq_none.mp h r mem
    | some r' =>
      have keyed : key r' = key r := by simpa using List.find?_some h
      rw [List.inj_on_of_nodup_map t.keys_nodup (List.mem_of_find?_eq_some h) mem keyed]

/-- A lookup finds nothing exactly when no row has the key. -/
theorem find?_eq_none {t : Table key} {k : κ} : t.find? k = none ↔ k ∉ t.rows.map key := by
  rw [find?, List.find?_eq_none, List.mem_map]
  constructor
  · rintro h ⟨r, mem, rfl⟩
    simpa using h r mem
  · intro h r mem keyed
    exact h ⟨r, mem, by simpa using keyed⟩

/-- The table contains the keys of its rows. -/
theorem contains_iff {t : Table key} {k : κ} : t.contains k = true ↔ k ∈ t.rows.map key := by
  simp [contains]

/-- A table contains what a lookup finds in it. -/
theorem contains_eq_isSome (t : Table key) (k : κ) : t.contains k = (t.find? k).isSome := by
  rw [Bool.eq_iff_iff, contains_iff]
  cases h : t.find? k with
  | none => simpa using find?_eq_none.mp h
  | some r => simpa using ⟨r, (find?_eq_some.mp h).1, (find?_eq_some.mp h).2⟩

/-- Nothing is found in an empty table. -/
@[simp] theorem find?_empty (k : κ) : (empty : Table key).find? k = none := rfl

/-- An upsert is read back under its key, and every other key reads as before. -/
theorem find?_upsert (t : Table key) (r : ρ) (update : ρ → ρ)
    (same : ∀ old, key (update old) = key old) (k : κ) :
    (t.upsert r update same).find? k =
      if k = key r then some ((t.find? k).elim r update) else t.find? k := by
  unfold upsert
  split
  · rename_i taken
    -- an update keeps the keys, so a row is found where it was found before
    have keeps : (fun r => Decidable.decide (key r = k)) ∘
        (fun old => if key old = key r then update old else old) =
        fun r => Decidable.decide (key r = k) := by
      funext old
      rw [Function.comp_apply]
      split
      · rw [same old]
      · rfl
    rw [find?, List.find?_map, keeps]
    change (t.find? k).map _ = _
    cases h : t.find? k with
    | none =>
      have other : k ≠ key r := by
        rintro rfl
        exact find?_eq_none.mp h taken
      rw [if_neg other, Option.map_none]
    | some old =>
      rw [Option.map_some, (find?_eq_some.mp h).2]
      by_cases here : k = key r
      · rw [if_pos here, if_pos here, Option.elim_some]
      · rw [if_neg here, if_neg here]
  · rename_i free
    rw [find?, List.find?_append]
    change (t.find? k).or _ = _
    by_cases here : k = key r
    · subst here
      rw [find?_eq_none.mpr free, if_pos rfl, Option.none_or, Option.elim_none, List.find?_singleton]
      simp
    · have passed : [r].find? (fun r => Decidable.decide (key r = k)) = none := by
        simpa using fun same => here same.symm
      rw [passed, Option.or_none, if_neg here]

/-- After `put` a lookup of that key finds the row, and any other key finds what it found before. -/
@[simp] theorem find?_put (t : Table key) (r : ρ) (k : κ) :
    (t.put r).find? k = if k = key r then some r else t.find? k := by
  rw [put, find?_upsert]
  split
  · rename_i here
    cases found : t.find? k with
    | none => rfl
    | some old =>
      rw [Option.elim_some, if_pos ((find?_eq_some.mp found).2.trans here)]
  · rfl

/-- A change of rows that leaves the keys alone changes what lookups find, row by row. -/
theorem find?_map (t : Table key) {f : ρ → ρ} (same : ∀ r, key (f r) = key r) (k : κ) :
    (t.map f same).find? k = (t.find? k).map f := by
  have keeps : (fun r => Decidable.decide (key r = k)) ∘ f = fun r => Decidable.decide (key r = k) := by
    funext r
    rw [Function.comp_apply, same r]
  change (t.rows.map f).find? _ = (t.rows.find? _).map f
  rw [List.find?_map, keeps]

/-- A delete hides the rows it names. -/
theorem find?_deleteWhere (t : Table key) (p : ρ → Bool) (k : κ) :
    (t.deleteWhere p).find? k = (t.find? k).filter fun r => !p r := by
  cases h : t.find? k with
  | none =>
    rw [Option.filter_none, find?_eq_none]
    intro there
    obtain ⟨r, mem, keyed⟩ := List.mem_map.mp there
    exact find?_eq_none.mp h (List.mem_map.mpr ⟨r, List.mem_of_mem_filter mem, keyed⟩)
  | some r =>
    obtain ⟨mem, keyed⟩ := find?_eq_some.mp h
    cases gone : p r with
    | false =>
      rw [Option.filter_some_pos (by rw [gone]; rfl)]
      exact find?_eq_some.mpr ⟨List.mem_filter.mpr ⟨mem, by rw [gone]; rfl⟩, keyed⟩
    | true =>
      rw [Option.filter_some_neg (by simp [gone]), find?_eq_none]
      intro there
      obtain ⟨r', mem', keyed'⟩ := List.mem_map.mp there
      obtain ⟨old, kept⟩ := List.mem_filter.mp mem'
      rw [List.inj_on_of_nodup_map t.keys_nodup old mem (keyed'.trans keyed.symm), gone] at kept
      cases kept

/-- An insert under a free key is read back, and every other key reads as before. -/
theorem find?_insert {t t' : Table key} {r : ρ} (inserted : t.insert r = some t') (k : κ) :
    t'.find? k = if k = key r then some r else t.find? k := by
  unfold insert at inserted
  split at inserted
  · cases inserted
  · rename_i free
    cases inserted
    rw [find?, List.find?_append]
    change (t.find? k).or _ = _
    by_cases here : k = key r
    · subst here
      rw [find?_eq_none.mpr free, if_pos rfl, Option.none_or, List.find?_singleton]
      simp
    · have passed : [r].find? (fun r => Decidable.decide (key r = k)) = none := by
        simpa using fun same => here same.symm
      rw [passed, Option.or_none, if_neg here]

/-- An insert under a free key appends the row. -/
theorem insert_of_free {t : Table key} {r : ρ} (free : key r ∉ t.rows.map key) :
    ∃ t', t.insert r = some t' ∧ t'.rows = t.rows ++ [r] := by
  rw [insert, dif_neg free]
  exact ⟨_, rfl, rfl⟩

/-- A key is one of the table's exactly when a lookup finds it. -/
theorem mem_keys_iff {t : Table key} {k : κ} : k ∈ t.rows.map key ↔ (t.find? k).isSome = true := by
  rw [← contains_eq_isSome, contains_iff]

end Table

/-! ## `ORDER BY` -/

section OrderBy

variable {ρ α : Type} [LinearOrder α]

/-- `ORDER BY`; rows that compare equal keep their order. -/
def orderBy (column : ρ → α) (rows : List ρ) : List ρ :=
  rows.mergeSort fun r s => column r ≤ column s

/-- `ORDER BY` neither loses nor repeats a row. -/
theorem orderBy_perm (column : ρ → α) (rows : List ρ) : (orderBy column rows).Perm rows :=
  rows.mergeSort_perm _

/-- `ORDER BY` keeps the rows it is given. -/
@[simp] theorem mem_orderBy {column : ρ → α} {rows : List ρ} {r : ρ} :
    r ∈ orderBy column rows ↔ r ∈ rows := (orderBy_perm column rows).mem_iff

/-- The rows come out ordered by the column. -/
theorem orderBy_pairwise (column : ρ → α) (rows : List ρ) :
    (orderBy column rows).Pairwise fun r s => column r ≤ column s := by
  have sorted : (orderBy column rows).Pairwise fun r s => decide (column r ≤ column s) = true := by
    apply List.pairwise_mergeSort
    · simpa using fun r s u => le_trans (a := column r) (b := column s) (c := column u)
    · simpa using fun r s => le_total (column r) (column s)
  exact sorted.imp of_decide_eq_true

/-- Rows that stand in order already are picked out of the ordered list as they stand. -/
theorem filter_orderBy (column : ρ → α) (p : ρ → Bool) {rows : List ρ}
    (ordered : (rows.filter p).Pairwise fun r s => column r ≤ column s) :
    (orderBy column rows).filter p = rows.filter p := by
  have stable : (rows.filter p).Sublist (orderBy column rows) := by
    apply List.sublist_mergeSort
    · simpa using fun r s u => le_trans (a := column r) (b := column s) (c := column u)
    · simpa using fun r s => le_total (column r) (column s)
    · simpa using ordered
    · exact List.filter_sublist
  have picked : (rows.filter p).Sublist ((orderBy column rows).filter p) := by
    simpa using stable.filter p
  exact (picked.eq_of_length ((orderBy_perm column rows).filter p).length_eq.symm).symm

/-- Rows that are in order already stay as they are: the sort is stable. -/
theorem orderBy_of_ordered (column : ρ → α) {rows : List ρ}
    (ordered : rows.Pairwise fun r s => column r ≤ column s) : orderBy column rows = rows :=
  List.mergeSort_of_pairwise (by simpa using ordered)

end OrderBy

/-! ## A loop of statements -/

section Loop

/-- A sequence that returned went through a first part that returned. -/
theorem bind_ok {α β ε : Type} {x : Except ε α} {f : α → Except ε β} {b : β}
    (h : x.bind f = .ok b) : ∃ a, x = .ok a ∧ f a = .ok b := by
  cases x with
  | error e => cases h
  | ok a => exact ⟨a, rfl, h⟩

variable {α σ ε : Type} {f : σ → α → Except ε σ} {P : List α → σ → Prop} {l : List α} {s : σ}

/-- A loop does what its steps do, until one of them fails: `P done s` says what the state is after
the statements for `done`. -/
theorem foldlM_cases {Q : ε → Prop}
    (step : ∀ done a rest, l = done ++ a :: rest → ∀ s, P done s →
      (∃ s', f s a = .ok s' ∧ P (done ++ [a]) s') ∨ ∃ e, f s a = .error e ∧ Q e)
    (start : P [] s) :
    (∃ s', l.foldlM f s = .ok s' ∧ P l s') ∨ ∃ e, l.foldlM f s = .error e ∧ Q e := by
  have go : ∀ (rest done : List α), l = done ++ rest → ∀ s, P done s →
      (∃ s', rest.foldlM f s = .ok s' ∧ P l s') ∨ ∃ e, rest.foldlM f s = .error e ∧ Q e := by
    intro rest
    induction rest with
    | nil =>
      intro done all s h
      rw [List.append_nil] at all
      exact .inl ⟨s, rfl, all ▸ h⟩
    | cons a rest ih =>
      intro done all s h
      rw [List.foldlM_cons]
      rcases step done a rest all s h with ⟨s', ok, h'⟩ | ⟨e, failed, he⟩
      · rw [ok]
        exact ih (done ++ [a]) (by rw [all, List.append_assoc]; rfl) s' h'
      · rw [failed]
        exact .inr ⟨e, rfl, he⟩
  exact go l [] rfl s start

/-- A loop none of whose steps fails. -/
theorem foldlM_ok
    (step : ∀ done a rest, l = done ++ a :: rest → ∀ s, P done s →
      ∃ s', f s a = .ok s' ∧ P (done ++ [a]) s')
    (start : P [] s) : ∃ s', l.foldlM f s = .ok s' ∧ P l s' := by
  have none_fails := foldlM_cases (Q := fun _ => False)
    (fun done a rest all s h => .inl (step done a rest all s h)) start
  rcases none_fails with ok | ⟨_, _, impossible⟩
  · exact ok
  · exact impossible.elim

omit P in
/-- A fold that may fail depends on its step at the list's own elements only. -/
theorem foldlM_congr {f' : σ → α → Except ε σ} (same : ∀ a ∈ l, ∀ s, f s a = f' s a) :
    l.foldlM f s = l.foldlM f' s := by
  induction l generalizing s with
  | nil => rfl
  | cons a l ih =>
    rw [List.foldlM_cons, List.foldlM_cons, same a List.mem_cons_self]
    congr 1
    funext s
    exact ih fun a' mem => same a' (List.mem_cons_of_mem _ mem)

/-- A loop that goes through on one state goes through on a related one, when its steps do. -/
theorem foldlM_simulates {τ : Type} {f' : τ → α → Except ε τ} {R : σ → τ → Prop}
    (step : ∀ a ∈ l, ∀ s t s', R s t → f s a = .ok s' → ∃ t', f' t a = .ok t' ∧ R s' t')
    {t : τ} {s' : σ} (start : R s t) (goes : l.foldlM f s = .ok s') :
    ∃ t', l.foldlM f' t = .ok t' ∧ R s' t' := by
  induction l generalizing s t with
  | nil =>
    cases goes
    exact ⟨t, rfl, start⟩
  | cons a l ih =>
    rw [List.foldlM_cons] at goes
    obtain ⟨s₁, first, rest⟩ := bind_ok goes
    obtain ⟨t₁, first', related⟩ := step a List.mem_cons_self s t s₁ start first
    obtain ⟨t', rest', related'⟩ :=
      ih (fun a' mem => step a' (List.mem_cons_of_mem _ mem)) related rest
    refine ⟨t', ?_, related'⟩
    rw [List.foldlM_cons, first']
    exact rest'

/-- Each step of a loop that goes through does so. -/
theorem foldlM_found {s' : σ} (goes : l.foldlM f s = .ok s') : ∀ a ∈ l, ∃ s s', f s a = .ok s' := by
  induction l generalizing s with
  | nil => simp
  | cons a l ih =>
    rw [List.foldlM_cons] at goes
    obtain ⟨s₁, first, rest⟩ := bind_ok goes
    exact List.forall_mem_cons.mpr ⟨⟨s, s₁, first⟩, ih rest⟩

/-- The loop that looks up the value of each key. -/
theorem mapM_cases {κ β ε : Type} {f : κ → Except ε β} {key : β → κ} {R : β → Prop} {Q : ε → Prop}
    {l : List κ}
    (each : ∀ k ∈ l, (∃ b, f k = .ok b ∧ key b = k ∧ R b) ∨ ∃ e, f k = .error e ∧ Q e) :
    (∃ bs, l.mapM f = .ok bs ∧ bs.map key = l ∧ ∀ b ∈ bs, R b) ∨ ∃ e, l.mapM f = .error e ∧ Q e := by
  induction l with
  | nil => exact .inl ⟨[], rfl, rfl, by simp⟩
  | cons k l ih =>
    rw [List.mapM_cons]
    rcases each k List.mem_cons_self with ⟨b, ok, rfl, hb⟩ | ⟨e, failed, he⟩
    · rw [ok]
      rcases ih fun k' mem => each k' (List.mem_cons_of_mem _ mem) with
        ⟨bs, oks, rfl, hbs⟩ | ⟨e, failed, he⟩
      · exact .inl ⟨b :: bs, by rw [oks]; rfl, rfl, List.forall_mem_cons.mpr ⟨hb, hbs⟩⟩
      · exact .inr ⟨e, by rw [failed]; rfl, he⟩
    · rw [failed]
      exact .inr ⟨e, rfl, he⟩

/-- A list read key by key comes out with the keys it was asked for. -/
theorem mapM_ok {κ β ε : Type} {f : κ → Except ε β} {key : β → κ} {l : List κ}
    (each : ∀ k ∈ l, ∃ b, f k = .ok b ∧ key b = k) : ∃ bs, l.mapM f = .ok bs ∧ bs.map key = l := by
  have none_fails := mapM_cases (f := f) (l := l) (R := fun b => ∃ k ∈ l, key b = k)
    (Q := fun _ => False) fun k mem => by
      obtain ⟨b, ok, keyed⟩ := each k mem
      exact .inl ⟨b, ok, keyed, k, mem, keyed⟩
  rcases none_fails with ⟨bs, ok, keys, -⟩ | ⟨_, _, impossible⟩
  · exact ⟨bs, ok, keys⟩
  · exact impossible.elim

/-- A loop of lookups that goes through has found every key. -/
theorem mapM_found {κ β ε : Type} {f : κ → Except ε β} {l : List κ} {bs : List β}
    (goes : l.mapM f = .ok bs) : ∀ k ∈ l, ∃ b, f k = .ok b := by
  induction l generalizing bs with
  | nil => simp
  | cons k l ih =>
    rw [List.mapM_cons] at goes
    obtain ⟨b, first, rest⟩ := bind_ok goes
    obtain ⟨bs', others, -⟩ := bind_ok rest
    exact List.forall_mem_cons.mpr ⟨⟨b, first⟩, ih others⟩

end Loop

/-! ## Sessions -/

section Session

variable {γ σ τ ο : Type}

/-- The outcomes of calls made one after another, and the state they leave. -/
def session (call : γ → σ → ο × σ) : List γ → σ → List ο × σ
  | [], s => ([], s)
  | c :: calls, s =>
    let (outcome, s) := call c s
    let (outcomes, s) := session call calls s
    (outcome :: outcomes, s)

/-- States that are related stay so, and the calls have the same outcomes, when each call sees to
it. -/
theorem session_simulates {call : γ → σ → ο × σ} {call' : γ → τ → ο × τ} {R : σ → τ → Prop}
    (step : ∀ c s t, R s t → (call c s).1 = (call' c t).1 ∧ R (call c s).2 (call' c t).2)
    (calls : List γ) {s : σ} {t : τ} (start : R s t) :
    (session call calls s).1 = (session call' calls t).1 ∧
      R (session call calls s).2 (session call' calls t).2 := by
  induction calls generalizing s t with
  | nil => exact ⟨rfl, start⟩
  | cons c calls ih =>
    obtain ⟨same, related⟩ := step c s t start
    obtain ⟨sames, relateds⟩ := ih related
    exact ⟨congrArg₂ _ same sames, relateds⟩

/-- States that are related stay so, whatever the outcomes. -/
theorem session_relates {ο' : Type} {call : γ → σ → ο × σ} {call' : γ → τ → ο' × τ}
    {R : σ → τ → Prop} (step : ∀ c s t, R s t → R (call c s).2 (call' c t).2) (calls : List γ)
    {s : σ} {t : τ} (start : R s t) : R (session call calls s).2 (session call' calls t).2 := by
  induction calls generalizing s t with
  | nil => exact start
  | cons c calls ih => exact ih (step c s t start)

end Session

end TTasks.Relational
