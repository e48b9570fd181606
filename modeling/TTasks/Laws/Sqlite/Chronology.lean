import TTasks.Laws.Sqlite.History
import TTasks.Sqlite.Timestamp

/-!
# The order of an iteration

The collections are iterated by `ORDER BY created_at, id` over a column of texts. The texts of naive
`datetime`s compare as these do, so the iteration is chronological, and by id among what was created
at one moment.
-/

namespace TTasks.Sqlite

open Format (write)
open Relational

/-! ## The text of a `datetime` -/

namespace NaiveDatetime

theorem eq_of_new? {year month day hour minute second microsecond : Nat} {d : NaiveDatetime}
    (made : new? year month day hour minute second microsecond = some d) :
    d.toSeconds = [year, month, day, hour, minute, second] ∧ d.microsecond = microsecond := by
  unfold new? at made
  split at made
  · split at made
    · obtain rfl := Option.some.inj made
      exact ⟨rfl, rfl⟩
    · cases made
  · cases made

/-- A fraction is the one that is written, or six zeros. -/
theorem eq_of_readFraction {text : List Char} {n : Nat} (found : readFraction text = some n) :
    text = fraction n ∨ n = 0 ∧ text = ".000000".toList := by
  unfold readFraction at found
  split at found
  · obtain rfl := Option.some.inj found
    exact .inl rfl
  · rename_i text
    split at found
    · rename_i length
      obtain ⟨written, -⟩ := Format.digits_of_ofDigits? found
      rw [length] at written
      by_cases zero : n = 0
      · subst zero
        exact .inr ⟨rfl, congrArg ('.' :: ·) written.symm⟩
      · left
        rw [fraction, if_neg zero, written]
    · cases found
  · cases found

/-- A `datetime` reads back from its text, an earlier one has an earlier text, and what reads as a
`datetime` is its text, or its text with zero microseconds written out. -/
theorem isoformat_faithful :
    (∀ d : NaiveDatetime, fromisoformat d.isoformat = some d) ∧
      (∀ d e : NaiveDatetime, d.isoformat < e.isoformat ↔ d < e) ∧
      ∀ (text : String) (d : NaiveDatetime), fromisoformat text = some d →
        text = d.isoformat ∨ d.microsecond = 0 ∧ text = d.isoformat ++ ".000000" := by
  refine ⟨fromisoformat_isoformat, fun _ _ => isoformat_lt, ?_⟩
  intro text d found
  unfold fromisoformat at found
  simp only [Option.bind_eq_bind, Option.bind_eq_some_iff] at found
  obtain ⟨⟨ns, rest⟩, row, microsecond, fraction?, made⟩ := found
  obtain ⟨written, -⟩ := Format.eq_of_read row
  split at made
  · rename_i fields
    obtain ⟨seconds, rfl⟩ := eq_of_new? made
    obtain rfl : ns = d.toSeconds := Eq.trans fields seconds.symm
    have spelled : text = String.ofList (write layout d.toSeconds ++ rest) := by
      rw [← written, String.ofList_toList]
    rcases eq_of_readFraction fraction? with plain | ⟨zero, zeros⟩
    · left
      change rest = _ at plain
      rw [spelled, plain, isoformat]
    · refine .inr ⟨zero, ?_⟩
      change rest = _ at zeros
      rw [spelled, zeros, isoformat, zero]
      simp [fraction]
  · cases made

end NaiveDatetime

/-! ## The collections -/

/-- The rows by their texts are the ids by their dates. -/
theorem orderBy_chronological {ρ : Type} {id createdAt : ρ → String} {rows : List ρ}
    (nodup : (rows.map id).Nodup) {date : String → Option NaiveDatetime}
    (written : ∀ row ∈ rows, ∃ d, date (id row) = some d ∧ createdAt row = d.isoformat) :
    ((orderBy (fun row => toLex (createdAt row, id row)) rows).map id).Pairwise fun k l =>
      ∀ d ∈ date k, ∀ e ∈ date l, toLex (d, k) < toLex (e, l) := by
  have distinct := ((orderBy_perm (fun row => toLex (createdAt row, id row)) rows).map id).nodup_iff.mpr
    nodup
  have sorted := orderBy_pairwise (fun row => toLex (createdAt row, id row)) rows
  rw [List.pairwise_map]
  have both := sorted.and (List.pairwise_map.mp distinct)
  refine both.imp_of_mem ?_
  rintro r s hr hs ⟨before, other⟩ d hd e he
  obtain ⟨d', hd', textR⟩ := written r (mem_orderBy.mp hr)
  obtain ⟨e', he', textS⟩ := written s (mem_orderBy.mp hs)
  obtain rfl : d' = d := Option.some.inj (hd'.symm.trans hd)
  obtain rfl : e' = e := Option.some.inj (he'.symm.trans he)
  rw [Prod.Lex.toLex_le_toLex, textR, textS] at before
  rw [Prod.Lex.toLex_lt_toLex]
  rcases before with earlier | ⟨same, before⟩
  · exact .inl (NaiveDatetime.isoformat_lt.mp earlier)
  · refine .inr ⟨?_, lt_of_le_of_ne before other⟩
    have read := NaiveDatetime.fromisoformat_isoformat d'
    change d'.isoformat = e'.isoformat at same
    rw [same, NaiveDatetime.fromisoformat_isoformat] at read
    exact (Option.some.inj read).symm

/-- Over every history of a store, its tasks and its graphs are iterated in the order of their
creation. -/
theorem iterates_chronologically (calls : List (StoreCall NaiveDatetime)) :
    let store := (session StoreCall.run calls Database.empty).2
    let contents := (session StoreCall.meaning calls Contents.empty).2
    (∀ t, t ∈ TaskCollection.iter store ↔ (contents.tasks t).isSome = true) ∧
      ((TaskCollection.iter store).Pairwise fun t u =>
        ∀ d ∈ (contents.tasks t).map (·.createdAt), ∀ e ∈ (contents.tasks u).map (·.createdAt),
          toLex (d, t) < toLex (e, u)) ∧
      (∀ k, k ∈ GraphCollection.iter store ↔ (contents.graphs k).isSome = true) ∧
      (GraphCollection.iter store).Pairwise fun k l =>
        ∀ d ∈ (contents.graphs k).map (·.1.createdAt), ∀ e ∈ (contents.graphs l).map (·.1.createdAt),
          toLex (d, k) < toLex (e, l) := by
  intro store contents
  obtain ⟨-, h⟩ := session_simulates StoreCall.run_simulates calls Represents.empty
  change Represents store contents at h
  refine ⟨h.mem_iter, ?_, h.mem_graph_iter, ?_⟩
  -- each task's row shows the time that its contents have
  · apply orderBy_chronological store.tasks.keys_nodup
    intro row mem
    have here := Table.find?_eq_some.mpr ⟨mem, rfl⟩
    have holds := h.tasks row.id
    cases stored : contents.tasks row.id with
    | none =>
      rw [stored, holdsAt_none, here] at holds
      cases holds
    | some snapshot =>
      rw [stored] at holds
      obtain ⟨same, -, written⟩ := holds
      have read := written.taskRow
      rw [same, here] at read
      exact ⟨snapshot.createdAt, rfl, congrArg TaskRow.createdAt (Option.some.inj read)⟩
  -- and so does each graph's
  · apply orderBy_chronological store.graphs.keys_nodup
    intro row mem
    have here := Table.find?_eq_some.mpr ⟨mem, rfl⟩
    cases stored : contents.graphs row.id with
    | none =>
      have none := h.absent row.id stored
      rw [here] at none
      cases none
    | some p =>
      obtain ⟨g, lives⟩ := p
      have read := (h.written row.id g lives stored).graphRow
      rw [h.id row.id g lives stored, here] at read
      exact ⟨g.createdAt, rfl, congrArg GraphRow.createdAt (Option.some.inj read)⟩

end TTasks.Sqlite
