import RowStore.Proofs.Typing

/-! Plans return well-typed rows. The invariant names one schema for all rows that are still to
come, operator by operator; it outlives any call, also one that fails half way down the plan. -/
namespace RowStore.Plan

variable {τ : Type} [Storage τ] {exact : Bool}

/-- Whether the plan lists the names of tables, which are shorter than their column says. -/
def listsTables {σ : Type} : Plan σ → Bool
  | scan .. | insertion _ | source _ => false
  | selection input _ | projection input _ | limit input _ => input.listsTables
  | join left right => left.listsTables || right.listsTables
  | tables => true

/-- A row under the schema, and well typed. -/
def Fit (exact : Bool) (S : Schema) (row : Row) : Prop := row.schema = S ∧ row.Typed exact

/-- The rows still to come will have this schema. -/
def Steady (exact : Bool) : (p : Plan Empty) → p.State → Schema → Prop
  | scan .., s, S => ∀ scanning, (s : Option Scanning) = some scanning → scanning.schema = S
  | selection input _, (s : Passing _), S => input.Steady exact s.input S
  | projection input columns, (s : Projecting _ _), S =>
      ∃ T, input.Steady exact s.input T ∧
        ∀ taken, projectedColumns T columns = .ok taken → S = ⟨T.table, taken.map Prod.snd⟩
  | limit input _, (s : Limiting _), S => input.Steady exact s.input S
  | join left right, (s : Joining _ _), S =>
      (∃ T, left.Steady exact s.left T) ∧ (∃ T, right.Steady exact s.right T) ∧
        ∀ row ∈ s.output, Fit exact S row
  | insertion _, _, _ => True
  | tables, s, S => ∀ listing, (s : Option Listing) = some listing →
      listing.schema = S ∧ ∃ width, S.columns = [.fixedString "tables" width]

/-- One call of next returns a row under the schema, and the next one will again. -/
theorem next_steady (p : Plan Empty) (allowed : exact = true → p.listsTables = false)
    (S : Schema) : Keeps p.next (fun s => p.Steady exact s S) (Fit exact S) := by
  induction p generalizing S with
  | scan table asName =>
      intro s w steady
      cases (s : Option Scanning) with
      | none => exact ⟨steady, not_returned_of_error⟩
      | some scanning =>
          obtain rfl := steady scanning rfl
          refine ⟨fun _ same => Option.some.inj same ▸ rfl, fun row returned => ?_⟩
          simp only [next] at returned
          split at returned
          · cases returned
          · obtain ⟨_, read, same⟩ := map_eq_ok_iff.mp returned
            obtain rfl := Option.some.inj same
            rw [mapError_eq_ok_iff] at read
            have typed := RowFormat.typed_of_decode read
            refine ⟨RowFormat.schema_of_decode read, typed.imp fun _ _ holds => ?_⟩
            exact ⟨holds.type, fun _ => holds.length rfl⟩
  | selection input condition ih =>
      rintro ⟨below, isOpen⟩ w steady
      cases isOpen with
      | false => exact ⟨steady, not_returned_of_error⟩
      | true =>
          simp only [next, if_true]
          exact seek_keeps (ih allowed S) condition _ below w steady
  | projection input columns ih =>
      rintro ⟨below, layout, isOpen⟩ w ⟨T, steady, output⟩
      cases isOpen with
      | false => exact ⟨⟨T, steady, output⟩, not_returned_of_error⟩
      | true =>
          obtain ⟨kept, returned⟩ := ih allowed T below w steady
          obtain ⟨layout', projected⟩ := next_projection columns below layout w
          simp only [projected]
          refine ⟨⟨T, kept, output⟩, fun out done => ?_⟩
          split at done
          · rename_i row called
            obtain ⟨_, projected, same⟩ := map_eq_ok_iff.mp (mapError_eq_ok_iff.mp done)
            obtain rfl := Option.some.inj same
            obtain ⟨rfl, typed⟩ := returned row called
            obtain ⟨taken, known⟩ := projectedColumns_of_project projected
            obtain ⟨_, again, labelled, typed'⟩ := typed.project known
            obtain rfl := Except.ok.inj (projected.symm.trans again)
            exact ⟨labelled.trans (output taken known).symm, typed'⟩
          · rename_i other
            exact absurd done (other out)
  | limit input count ih =>
      rintro ⟨below, returned, isOpen⟩ w steady
      cases isOpen with
      | false => exact ⟨steady, not_returned_of_error⟩
      | true =>
          simp only [next, if_true]
          split
          · exact ⟨steady, not_returned_of_none⟩
          · exact ih allowed S below w steady
  | join left right =>
      rintro ⟨l, r, output, isOpen⟩ w ⟨steadyLeft, steadyRight, fit⟩
      cases isOpen with
      | false => exact ⟨⟨steadyLeft, steadyRight, fit⟩, not_returned_of_error⟩
      | true =>
          have later : ∀ row ∈ output.tail, Fit exact S row :=
            fun row member => fit row (List.mem_of_mem_tail member)
          refine ⟨⟨steadyLeft, steadyRight, later⟩, fun row returned => ?_⟩
          exact fit row (List.mem_of_mem_head? (Except.ok.inj returned))
  | insertion i =>
      rintro ⟨affected, isOpen⟩ w _
      cases isOpen with
      | false => exact ⟨trivial, not_returned_of_error⟩
      | true => exact ⟨trivial, not_returned_of_none⟩
  | tables =>
      intro s w steady
      cases (s : Option Listing) with
      | none => exact ⟨steady, not_returned_of_error⟩
      | some listing =>
          obtain ⟨rfl, width, columns⟩ := steady listing rfl
          refine ⟨fun _ same => ?_, fun row returned => ?_⟩
          · rw [← Option.some.inj same]
            exact ⟨rfl, width, columns⟩
          obtain ⟨name, _, rfl⟩ := Option.map_eq_some_iff.mp (Except.ok.inj returned)
          have loose : exact = false := by
            cases exact with
            | false => rfl
            | true => cases allowed rfl
          refine ⟨rfl, ?_⟩
          rw [Row.Typed, columns, loose]
          exact .cons ⟨rfl, by simp⟩ .nil
  | source s => exact s.elim

/-- Some schema is that of all rows still to come. -/
def Sound (exact : Bool) (p : Plan Empty) (s : p.State) : Prop := ∃ S, p.Steady exact s S

/-- The input of a projection settles what the projection returns. -/
theorem sound_projection {input : Plan Empty} {columns : List (String × String)}
    {s : Projecting columns input.State} (sound : input.Sound exact s.input) :
    (projection input columns).Sound exact s := by
  obtain ⟨T, steady⟩ := sound
  cases known : projectedColumns T columns with
  | error e => exact ⟨T, T, steady, fun _ h => by cases known.symm.trans h⟩
  | ok taken =>
      refine ⟨⟨T.table, taken.map Prod.snd⟩, T, steady, fun _ h => ?_⟩
      rw [Except.ok.inj (known.symm.trans h)]

theorem fresh_sound (p : Plan Empty) : p.Sound exact p.fresh := by
  induction p with
  | scan table asName => exact ⟨⟨"", []⟩, nofun⟩
  | selection input condition ih => exact ih
  | projection input columns ih => exact sound_projection ih
  | limit input count ih => exact ih
  | join left right ihl ihr => exact ⟨⟨"", []⟩, ihl, ihr, List.forall_mem_nil _⟩
  | insertion i => exact ⟨⟨"", []⟩, trivial⟩
  | tables => exact ⟨⟨"", []⟩, nofun⟩
  | source s => exact s.elim

theorem close_sound (p : Plan Empty) {s : p.State} (w : Unit) (sound : p.Sound exact s) :
    p.Sound exact (p.close s w).2.1 := by
  induction p generalizing w with
  | scan table asName => exact ⟨⟨"", []⟩, nofun⟩
  | selection input condition ih => exact ih w sound
  | projection input columns ih =>
      obtain ⟨_, T, steady, _⟩ := sound
      exact sound_projection (ih w ⟨T, steady⟩)
  | limit input count ih => exact ih w sound
  | join left right ihl ihr =>
      obtain ⟨S, steadyLeft, steadyRight, _⟩ := sound
      exact ⟨S, ihl w steadyLeft, ihr _ steadyRight, List.forall_mem_nil _⟩
  | insertion i => exact ⟨⟨"", []⟩, trivial⟩
  | tables => exact ⟨⟨"", []⟩, nofun⟩
  | source s => exact s.elim

theorem fit_crossProduct {S T : Schema} {lefts rights : List Row}
    (left : ∀ a ∈ lefts, Fit exact S a) (right : ∀ b ∈ rights, Fit exact T b) :
    ∀ row ∈ crossProduct lefts rights, Fit exact (joinedSchema S T) row := by
  intro row member
  rw [crossProduct_eq (fun a inLeft => (left a inLeft).1) fun b inRight => (right b inRight).1]
    at member
  obtain ⟨a, inLeft, member⟩ := List.mem_flatMap.mp member
  obtain ⟨b, inRight, rfl⟩ := List.mem_map.mp member
  obtain ⟨rfl, typedLeft⟩ := left a inLeft
  obtain ⟨rfl, typedRight⟩ := right b inRight
  exact ⟨rfl, typed_joinedRow typedLeft typedRight⟩

/-- Opening keeps the invariant at every operator, also where it fails below or beside it. -/
theorem start_sound (p : Plan Empty) (allowed : exact = true → p.listsTables = false) (c : Catalog)
    {s : p.State} (w : Surroundings τ Unit) (sound : p.Sound exact s) :
    p.Sound exact (p.start c s w).2.1 := by
  induction p generalizing w with
  | scan table asName =>
      simp only [start]
      split
      · exact sound
      · rename_i schema known
        refine ⟨exposed schema asName, fun scanning same => ?_⟩
        rw [← Option.some.inj same]
  | selection input condition ih =>
      have kept := ih allowed w sound
      simp only [start]
      rcases called : input.start c (s : Passing _).input w with ⟨_ | _, below, w'⟩ <;>
        rw [called] at kept <;> exact kept
  | projection input columns ih =>
      obtain ⟨_, T, steady, _⟩ := sound
      have kept := ih allowed w ⟨T, steady⟩
      simp only [start]
      rcases called : input.start c (s : Projecting _ _).input w with ⟨_ | _, below, w'⟩ <;>
        rw [called] at kept <;> exact sound_projection kept
  | limit input count ih =>
      have kept := ih allowed w sound
      simp only [start]
      rcases called : input.start c (s : Limiting _).input w with ⟨_ | _, below, w'⟩ <;>
        rw [called] at kept <;> exact kept
  | join left right ihl ihr =>
      have allowedBoth : exact = true → left.listsTables = false ∧ right.listsTables = false :=
        fun h => Bool.or_eq_false_iff.mp (allowed h)
      obtain ⟨S, soundLeft, soundRight, fit⟩ := sound
      have keptLeft := ihl (fun h => (allowedBoth h).1) w soundLeft
      simp only [start]
      rcases startedLeft : left.start c (s : Joining _ _).left w with ⟨_ | _, l, w₁⟩ <;>
        rw [startedLeft] at keptLeft
      · exact ⟨S, keptLeft, soundRight, fit⟩
      have keptRight := ihr (fun h => (allowedBoth h).2) w₁ soundRight
      simp only
      rcases startedRight : right.start c (s : Joining _ _).right w₁ with ⟨_ | _, r, w₂⟩ <;>
        rw [startedRight] at keptRight
      · exact ⟨S, keptLeft, keptRight, fit⟩
      obtain ⟨T, steadyLeft⟩ := keptLeft
      have readLeft := drain_keeps (next_steady left (fun h => (allowedBoth h).1) T)
        (left.remaining l + 1) steadyLeft w₂.world
      simp only
      rcases drainedLeft : drain left.next (left.remaining l + 1) l w₂.world with
        ⟨_ | lefts, l', world⟩ <;> rw [drainedLeft] at readLeft
      · exact ⟨S, ⟨T, readLeft.1⟩, keptRight, fit⟩
      obtain ⟨U, steadyRight⟩ := keptRight
      have readRight := drain_keeps (next_steady right (fun h => (allowedBoth h).2) U)
        (right.remaining r + 1) steadyRight world
      simp only
      rcases drainedRight : drain right.next (right.remaining r + 1) r world with
        ⟨_ | rights, r', world'⟩ <;> rw [drainedRight] at readRight
      · exact ⟨S, ⟨T, readLeft.1⟩, ⟨U, readRight.1⟩, fit⟩
      · exact ⟨joinedSchema T U, ⟨T, readLeft.1⟩, ⟨U, readRight.1⟩,
          fit_crossProduct (readLeft.2 lefts rfl) (readRight.2 rights rfl)⟩
  | insertion i => exact ⟨⟨"", []⟩, trivial⟩
  | tables =>
      refine ⟨listingSchema c.names, fun listing same => ?_⟩
      rw [← Option.some.inj same]
      exact ⟨rfl, _, rfl⟩
  | source s => exact s.elim

theorem after_sound (p : Plan Empty) (allowed : exact = true → p.listsTables = false)
    {s : p.State} (request : Request τ) (sound : p.Sound exact s) :
    p.Sound exact (p.after s request) := by
  cases request with
  | start c store => exact start_sound p allowed c ⟨store, ()⟩ sound
  | next =>
      obtain ⟨S, steady⟩ := sound
      exact ⟨S, (next_steady p allowed S s () steady).1⟩
  | close => exact close_sound p () sound

/-- The rows that a plan opens with are all under one schema. -/
theorem fit_of_opening (p : Plan Empty) (c : Catalog) (store : τ) {rows : List Row}
    (opened : ((p.opening c store).1 >>= Yield.rows) = .ok rows) :
    ∃ S, ∀ row ∈ rows, Fit false S row := by
  obtain ⟨xs, outcome, read⟩ := bind_eq_ok_iff.mp opened
  obtain ⟨s, started, ready⟩ := start_eq_opening c p p.fresh store
  obtain ⟨isOpen, coming⟩ := ready xs outcome
  have allowed : false = true → p.listsTables = false := nofun
  obtain ⟨S, steady⟩ : p.Sound false s := by
    have sound := start_sound p allowed c ⟨store, ()⟩ (fresh_sound p)
    rwa [started] at sound
  obtain ⟨_, drained, _⟩ := drain_of_pulls (next_of_open p) () (Nat.lt_succ_self _) isOpen
  have kept := drain_keeps (next_steady p allowed S) ((p.yields s).length + 1) steady ()
  rw [drained, coming, read] at kept
  exact ⟨S, kept.2 rows rfl⟩

/-- An opened join holds each pair of a left and a right row under the schemas of these two. -/
theorem output_of_start {left right : Plan Empty} {c : Catalog} {store : τ}
    {s s' : Joining left.State right.State} {w : Surroundings τ Unit}
    (opened : (join left right).start c s ⟨store, ()⟩ = (.ok (), s', w)) :
    ∃ lefts rights,
      ((left.opening c store).1 >>= Yield.rows) = .ok lefts ∧
      ((right.opening c (left.opening c store).2).1 >>= Yield.rows) = .ok rights ∧
      s'.output = lefts.flatMap fun a => rights.map fun b => joinedRow a b := by
  obtain ⟨xs, outcome, _, yielded⟩ := opening_of_start (congrArg Prod.fst opened)
  rw [opened] at yielded
  have coming : s'.output.map Except.ok = xs := yielded
  rcases opensLeft : left.opening c store with ⟨_ | ys, store₁⟩ <;>
    rw [opening, opensLeft] at outcome
  · cases outcome
  rcases opensRight : right.opening c store₁ with ⟨_ | zs, store₂⟩ <;>
    simp only [opensRight, joined, ok_bind, error_bind, reduceCtorEq] at outcome
  obtain ⟨lefts, readLeft, outcome⟩ := bind_eq_ok_iff.mp outcome
  obtain ⟨rights, readRight, outcome⟩ := bind_eq_ok_iff.mp outcome
  obtain rfl := Except.ok.inj outcome
  have inLeft : ((left.opening c store).1 >>= Yield.rows) = .ok lefts := by
    rw [opensLeft]
    exact readLeft
  have inRight : ((right.opening c store₁).1 >>= Yield.rows) = .ok rights := by
    rw [opensRight]
    exact readRight
  obtain ⟨S, fitLeft⟩ := fit_of_opening left c store inLeft
  obtain ⟨T, fitRight⟩ := fit_of_opening right c store₁ inRight
  refine ⟨lefts, rights, readLeft, readRight, ?_⟩
  rw [← crossProduct_eq (fun a member => (fitLeft a member).1) fun b member =>
    (fitRight b member).1]
  exact List.map_injective_iff.mpr (fun _ _ => Except.ok.inj) coming

/-- After any calls, against any catalogs and stores, all rows that a plan goes on to return have
one schema and fit it, texts to the byte unless the plan lists tables; so a projection finds all
that its names ask for. A join labels each row by the schemas of the two rows it is made of. -/
theorem rows_keep_their_schema :
    (∀ (p : Plan Empty) (requests : List (Request τ)), ∃ S,
      ∀ n, ∀ row ∈ p.pulled n (p.afterAll requests),
        row.schema = S ∧ row.Typed (!p.listsTables) ∧
          ∀ columns taken, projectedColumns S columns = .ok taken →
            ∃ out, project columns row = .ok out) ∧
      ∀ (left right : Plan Empty) (c : Catalog) (store : τ)
        (s s' : Joining left.State right.State) (w : Surroundings τ Unit),
        (join left right).start c s ⟨store, ()⟩ = (.ok (), s', w) → ∃ lefts rights,
          ((left.opening c store).1 >>= Yield.rows) = .ok lefts ∧
          ((right.opening c (left.opening c store).2).1 >>= Yield.rows) = .ok rights ∧
          s'.output = lefts.flatMap fun a => rights.map fun b => joinedRow a b := by
  refine ⟨fun p requests => ?_, fun left right c store s s' w opened => output_of_start opened⟩
  have allowed : (!p.listsTables) = true → p.listsTables = false := by simp
  obtain ⟨S, steady⟩ : p.Sound (!p.listsTables) (p.afterAll requests) :=
    invariant_afterAll (fresh_sound p) (fun _ request sound => after_sound p allowed request sound)
      requests
  refine ⟨S, fun n row member => ?_⟩
  obtain ⟨rfl, typed⟩ := pulled_keeps (next_steady p allowed S) steady n row member
  refine ⟨rfl, typed, fun columns taken known => ?_⟩
  obtain ⟨out, done, _⟩ := typed.project known
  exact ⟨out, done⟩

/-- The second opening finds no table. The join goes on with the rows of the first one, which had
passed over what else lies in the store. -/
theorem rows_keep_their_schema_after_failed_opening :
    let s : Schema := ⟨"t", [.plain .int32 "id", .fixedString "name" 2]⟩
    let c : Catalog := ⟨OrderedMap.empty.insert "t" s⟩
    let store : Entries := .ofList [(RowKey.ofText "t" "1", [2, 0, 0, 0, 0x61, 0x62]),
      (RowKey.ofText "t" "2", [4, 0, 0, 0, 0x63, 0x64]), (RowKey.ofText "u" "1", [0xFF])]
    let p : Plan Empty := .projection (.join (.scan "t" none) (.scan "t" (some "u")))
      [("u.name", "a"), ("t.id", "b")]
    let requests : List (Request Entries) := [.start c store, .next, .start .empty store]
    (p.start .empty (p.afterAll requests) ⟨store, ()⟩).1 =
        .error (.reported (.catalog (.unknownTable "t"))) ∧
      (p.pulled 4 (p.afterAll requests)).map Row.values =
        [[.fixedString "cd", .int32 1], [.fixedString "ab", .int32 2],
          [.fixedString "cd", .int32 2]] ∧
      ∃ S, ∀ row ∈ p.pulled 4 (p.afterAll requests), row.schema = S ∧ row.Typed true := by
  intro s c store p requests
  refine ⟨rfl, rfl, ?_⟩
  obtain ⟨S, kept⟩ := rows_keep_their_schema.1 p requests
  exact ⟨S, fun row member => ⟨(kept 4 row member).1, (kept 4 row member).2.1⟩⟩

end RowStore.Plan
