import SqlxData.Dynamic.BindOrigins
import SqlxData.Dynamic.PlainWords
import SqlxData.Lib.KeptParts
import SqlxData.Sqlparser.Reference

/-!
Value preservation for `?` placeholders: when the `i`-th placeholder of the
built text gets the `i`-th bind value. Generated values stand behind all
arguments, generated placeholders behind the WHERE of each SELECT.
-/

namespace SqlxData.Dynamic

open SqlxData.Sqlparser NumberedText KeptParts

variable {cfg : Config} {D : Display} {parser : Core.Parser} {baseSql : List Char} {q : Query}
  {params : Params} {n : ℕ}

/-- The base statement has `n` placeholders, all of them `?` and none in LIMIT
or OFFSET; the `i`-th from the left reads the `i`-th argument. -/
structure PositionalBase (D : Display) (q : Query) (n : ℕ) : Prop where
  printed : marks (D.query q) = (List.range n).map questionMark
  limit : marks (D.limitClause q.limitClause) = []

/-- The `?` of the built text are the placeholders `ms`, and the `i`-th bind
value is the one the `i`-th of them stands for. -/
structure PositionsBound (initialBinds : List FilterValue) (ms : List Mark) (built : BuiltSql) :
    Prop where
  text : ∃ ts, built.sql = render ts ∧ marks ts = ms
  questions : ∀ m ∈ ms, m.text = "?"
  bound : List.Forall₂ (fun m v => meaning initialBinds m.origin = some v) ms built.bindValues

/-! ### The text -/

/-- Numbering anew leaves every `?` where it is. -/
theorem marks_map_relabel (f : ℕ → ℕ) {ts : List Tok} (hquestions : ∀ m ∈ marks ts, m.text = "?") :
    marks (ts.map (Tok.relabel f)) = marks ts := by
  induction ts with
  | nil => rfl
  | cons t ts ih =>
      have hrest := ih fun m hm => hquestions m (by cases t <;> simp [hm])
      cases t with
      | word s => simpa [Tok.relabel] using hrest
      | placeholder text origin =>
          obtain rfl : text = "?" := hquestions ⟨text, origin⟩ (by simp)
          rw [List.map_cons, Tok.relabel, relabel_question, marks_placeholder, marks_placeholder, hrest]

theorem marks_renumberedTokens {β : Type} (binds : List β) (numbers : List ℕ) (maxExisting : ℕ)
    {ts : List Tok} (hquestions : ∀ m ∈ marks ts, m.text = "?") :
    marks (renumberedTokens binds numbers maxExisting ts) = marks ts := by
  rw [renumberedTokens]
  split
  · rfl
  · exact marks_map_relabel _ hquestions

/-! ### The first WHERE -/

section FirstWhere

variable (D)

/-- The placeholders ahead of the end of the first WHERE and those behind it;
`none` when there is no SELECT. -/
def aroundFirstWhere : SetExpr → Option (List Mark × List Mark)
  | .select s => some (aheadMarks D s, behindMarks D s)
  | .setOperation _ _ left right =>
      match aroundFirstWhere left with
      | some (ahead, behind) => some (ahead, behind ++ marks (D.setExpr right))
      | none =>
          (aroundFirstWhere right).map fun (ahead, behind) =>
            (marks (D.setExpr left) ++ ahead, behind)
  | .query ⟨ctes, body, order, limit, fetch, rest⟩ =>
      (aroundFirstWhere body).map fun (ahead, behind) =>
        (withMarks D ctes ++ ahead, behind ++
          (marks (D.orderBy order) ++ marks (D.limitClause limit) ++
            (marks (D.fetch fetch) ++ marks (D.queryRest rest))))
  | _ => none

/-- The placeholders of a query behind its first WHERE. -/
def behindFirstWhere (q : Query) : List Mark :=
  ((aroundFirstWhere D q.body).elim [] Prod.snd) ++
    (marks (D.orderBy q.orderBy) ++ marks (D.limitClause q.limitClause) ++
      (marks (D.fetch q.fetch) ++ marks (D.queryRest q.rest)))

/-- No `?` of the base statement is dropped with its ORDER BY, and if values
are generated, none stands behind the first WHERE. -/
def KeepsPositions (params : Params) (q : Query) (generated : List FilterValue) : Prop :=
  (replacesOrderBy params → marks (D.orderBy q.orderBy) = []) ∧
    (generated = [] ∨ behindFirstWhere D q = [])

theorem setExprValues_eq_nil (cfg : Config) (params : Params) {e : SetExpr}
    (h : aroundFirstWhere D e = none) : setExprValues cfg params e = [] := by
  fun_induction setExprValues cfg params e with
  | case1 s => simp [aroundFirstWhere] at h
  | case2 op quantifier left right ihl ihr =>
      rw [aroundFirstWhere] at h
      cases hleft : aroundFirstWhere D left with
      | some around => simp [hleft] at h
      | none =>
          simp only [hleft, Option.map_eq_none_iff] at h
          rw [ihl hleft, ihr h, List.nil_append]
  | case3 ctes body order limit fetch rest ih =>
      rw [aroundFirstWhere, Option.map_eq_none_iff] at h
      exact ih h
  | case4 => rfl

variable {R : List Mark → List Mark → Prop} {e : SetExpr} {ms printed : List Mark}

theorem Inserted.eq_of_none (h : Inserted D R e ms printed) (hnone : aroundFirstWhere D e = none) :
    ms = [] ∧ printed = marks (D.setExpr e) := by
  induction h with
  | select s ms shown h => simp [aroundFirstWhere] at hnone
  | @setOperation op quantifier l r ms₁ ms₂ printed₁ printed₂ hl hr ihl ihr =>
      rw [aroundFirstWhere] at hnone
      cases hleft : aroundFirstWhere D l with
      | some around => simp [hleft] at hnone
      | none =>
          simp only [hleft, Option.map_eq_none_iff] at hnone
          obtain ⟨rfl, rfl⟩ := ihl hleft
          obtain ⟨rfl, rfl⟩ := ihr hnone
          exact ⟨rfl, (marks_setExpr_setOperation D op quantifier l r).symm⟩
  | query ctes order limit fetch rest h ih =>
      rw [aroundFirstWhere, Option.map_eq_none_iff] at hnone
      obtain ⟨rfl, rfl⟩ := ih hnone
      exact ⟨rfl, by rw [marks_setExpr_query, marks_query]⟩
  | values rows => exact ⟨rfl, rfl⟩
  | table name => exact ⟨rfl, rfl⟩
  | other form args => exact ⟨rfl, rfl⟩

theorem Inserted.eq_of_nil (h : Inserted D R e ms printed)
    (hR : ∀ ms shown, R ms shown → shown = ms) (hms : ms = []) :
    printed = marks (D.setExpr e) := by
  induction h with
  | select s ms shown h =>
      rw [marks_setExpr_select, hR ms shown h, hms, List.append_nil]
  | @setOperation op quantifier l r ms₁ ms₂ printed₁ printed₂ hl hr ihl ihr =>
      obtain ⟨rfl, rfl⟩ := List.append_eq_nil_iff.mp hms
      rw [marks_setExpr_setOperation, ihl rfl, ihr rfl]
  | query ctes order limit fetch rest h ih =>
      rw [marks_setExpr_query, marks_query, ih hms]
  | values rows => rfl
  | table name => rfl
  | other form args => rfl

/-- The share of the first SELECT stands right behind its WHERE; if nothing
follows in the base statement, all shares do. -/
theorem Inserted.around (h : Inserted D R e ms printed)
    (hR : ∀ ms shown, R ms shown → shown = ms) {k : ℕ} (hk : ∀ ms shown, R ms shown → ms.length = k)
    {ahead behind : List Mark} (haround : aroundFirstWhere D e = some (ahead, behind)) :
    marks (D.setExpr e) = ahead ++ behind ∧
      ∃ first later shown, ms = first ++ later ∧ first.length = k ∧
        printed = ahead ++ (first ++ shown) ∧ (behind = [] → shown = later) := by
  induction h generalizing ahead behind with
  | select s ms shown h =>
      obtain ⟨rfl, rfl⟩ := Prod.mk.inj (Option.some.inj haround)
      refine ⟨marks_setExpr_select D s, ms, [], behindMarks D s, by simp, hk ms shown h, ?_, id⟩
      rw [hR ms shown h, List.append_assoc]
  | @setOperation op quantifier l r ms₁ ms₂ printed₁ printed₂ hl hr ihl ihr =>
      rw [aroundFirstWhere] at haround
      rw [marks_setExpr_setOperation]
      cases hleft : aroundFirstWhere D l with
      | some around =>
          simp only [hleft] at haround
          obtain ⟨rfl, rfl⟩ := Prod.mk.inj (Option.some.inj haround)
          obtain ⟨hmarks, first, later, shown, rfl, hfirst, rfl, hshown⟩ := ihl hleft
          refine ⟨by rw [hmarks, List.append_assoc], first, later ++ ms₂, shown ++ printed₂,
            by simp, hfirst, by simp, fun hbehind => ?_⟩
          -- without base placeholders the right side prints its share alone
          obtain ⟨hnil, hright⟩ := List.append_eq_nil_iff.mp hbehind
          rw [hshown hnil]
          cases haround : aroundFirstWhere D r with
          | none =>
              obtain ⟨rfl, rfl⟩ := hr.eq_of_none D haround
              rw [hright]
          | some around =>
              obtain ⟨hmarks', first', later', shown', rfl, -, rfl, hshown'⟩ := ihr haround
              obtain ⟨hahead, hbehind⟩ := List.append_eq_nil_iff.mp (hmarks'.symm.trans hright)
              rw [hahead, hshown' hbehind, List.nil_append]
      | none =>
          simp only [hleft, Option.map_eq_some_iff] at haround
          obtain ⟨⟨ahead', behind'⟩, hright, heq⟩ := haround
          obtain ⟨rfl, rfl⟩ := Prod.mk.inj heq
          obtain ⟨rfl, rfl⟩ := hl.eq_of_none D hleft
          obtain ⟨hmarks, first, later, shown, rfl, hfirst, rfl, hshown⟩ := ihr hright
          exact ⟨by rw [hmarks, List.append_assoc], first, later, shown, rfl, hfirst, by simp,
            hshown⟩
  | query ctes order limit fetch rest h ih =>
      rw [aroundFirstWhere, Option.map_eq_some_iff] at haround
      obtain ⟨⟨ahead', behind'⟩, hbody, heq⟩ := haround
      obtain ⟨rfl, rfl⟩ := Prod.mk.inj heq
      obtain ⟨hmarks, first, later, shown, rfl, hfirst, rfl, hshown⟩ := ih hbody
      refine ⟨by rw [marks_setExpr_query, marks_query, hmarks]; simp, first, later,
        shown ++ (marks (D.orderBy order) ++ marks (D.limitClause limit) ++
          (marks (D.fetch fetch) ++ marks (D.queryRest rest))), rfl, hfirst, by simp,
        fun hbehind => ?_⟩
      obtain ⟨hnil, htail⟩ := List.append_eq_nil_iff.mp hbehind
      rw [hshown hnil, htail, List.append_nil]
  | values rows => simp [aroundFirstWhere] at haround
  | table name => simp [aroundFirstWhere] at haround
  | other form args => simp [aroundFirstWhere] at haround

end FirstWhere

/-! ### The exact condition -/

theorem placeholderText_mysql (hbackend : cfg.backend = .mysql) (n : UInt8) :
    placeholderText cfg n = "?" := by
  rw [placeholderText, hbackend]

theorem text_of_mem_issued (hbackend : cfg.backend = .mysql) {n : UInt8}
    {vs : List FilterValue} {m : Mark} (hm : m ∈ issued cfg n vs) : m.text = "?" := by
  obtain ⟨j, hj⟩ := List.mem_iff_getElem?.mp hm
  rw [getElem?_issued, Option.map_eq_some_iff] at hj
  obtain ⟨v, -, rfl⟩ := hj
  exact placeholderText_mysql hbackend _

/-- The origins of the printed placeholders are those of the bind values, in
order, exactly when the positions are kept. -/
theorem PositionalBase.map_origin_iff (hbase : PositionalBase D q n) (hcursor : ¬HasCursor params)
    {start : UInt8} {printed : List Mark}
    (hprinted : Printed D cfg params q (issued cfg start (setExprValues cfg params q.body)) printed) :
    printed.map Mark.origin = bindOrigins n (setExprValues cfg params q.body) ↔
      KeepsPositions D params q (setExprValues cfg params q.body) := by
  obtain ⟨body, hbody, rfl⟩ := hprinted
  have horigins : bindOrigins n (setExprValues cfg params q.body) =
      (marks (D.query q) ++ issued cfg start (setExprValues cfg params q.body)).map
        Mark.origin := by
    rw [List.map_append, map_origin_issued, hbase.printed, List.map_map, bindOrigins]
    rfl
  rw [horigins, marks_query, tailMarks, hbase.limit, ite_self, List.append_nil]
  have hR : ∀ ms shown, Arranged cfg params ms shown → shown = ms := fun _ _ h =>
    h.inOrder hcursor
  by_cases hnil : setExprValues cfg params q.body = []
  · -- nothing is generated: only a replaced ORDER BY can drop a placeholder
    have hms : issued cfg start (setExprValues cfg params q.body) = [] :=
      (issued_eq_nil_iff _ _).mpr hnil
    rw [hbody.eq_of_nil D hR hms, hms, List.append_nil]
    simp only [KeepsPositions, hnil, true_or, and_true, List.append_nil]
    constructor
    · intro h hreplaces
      have hlength := congrArg List.length h
      simp only [if_pos hreplaces, List.length_map, List.length_append, List.length_nil]
        at hlength
      exact List.length_eq_zero_iff.mp (by omega)
    · intro h
      split
      · rename_i hreplaces
        rw [h hreplaces]
      · rfl
  · obtain ⟨⟨ahead, behind⟩, haround⟩ : ∃ around, aroundFirstWhere D q.body = some around := by
      apply Option.ne_none_iff_exists'.mp
      exact fun hnone => hnil (setExprValues_eq_nil D cfg params hnone)
    obtain ⟨hmarks, first, later, shown, hms, hfirst, rfl, hshown⟩ :=
      hbody.around D hR (fun _ _ h => h.length) haround
    have hbehind : behindFirstWhere D q = behind ++ (marks (D.orderBy q.orderBy) ++
        (marks (D.fetch q.fetch) ++ marks (D.queryRest q.rest))) := by
      rw [behindFirstWhere, haround, hbase.limit, List.append_nil]
      rfl
    simp only [KeepsPositions, hnil, false_or]
    constructor
    · intro h
      -- the first generated placeholder stands where the base text had one behind its WHERE
      have hvalues : selectValues cfg params ≠ [] := fun hvalues =>
        hnil (setExprValues_of_selectValues hvalues q.body)
      obtain ⟨m, rest, rfl⟩ : ∃ m rest, first = m :: rest := by
        cases first with
        | nil => exact (hvalues (List.length_eq_zero_iff.mp hfirst.symm)).elim
        | cons m rest => exact ⟨m, rest, rfl⟩
      obtain ⟨v, hv⟩ : ∃ v, m.origin = .pushed v := by
        have hmem : m.origin ∈ (issued cfg start (setExprValues cfg params q.body)).map
            Mark.origin := List.mem_map_of_mem (by simp [hms])
        rw [map_origin_issued] at hmem
        obtain ⟨v, -, hv⟩ := List.mem_map.mp hmem
        exact ⟨v, hv.symm⟩
      have hbehindNil : behindFirstWhere D q = [] := by
        by_contra hne
        obtain ⟨b, bs, hcons⟩ := List.exists_cons_of_ne_nil hne
        have hb : b ∈ marks (D.query q) := by
          have hmem : b ∈ behindFirstWhere D q := by simp [hcons]
          rw [hbehind] at hmem
          rw [marks_query, hmarks, hbase.limit]
          simp only [List.mem_append] at hmem ⊢
          tauto
        obtain ⟨i, -, rfl⟩ := exists_questionMark_of_mem hbase.printed hb
        rw [hmarks] at h
        have hsplit : withMarks D q.with ++ (ahead ++ behind) ++ (marks (D.orderBy q.orderBy) ++
            (marks (D.fetch q.fetch) ++ marks (D.queryRest q.rest))) =
              (withMarks D q.with ++ ahead) ++ questionMark i :: bs := by
          rw [← hcons, hbehind]
          simp only [List.append_assoc]
        rw [List.append_nil, hsplit] at h
        have hget := congrArg (·[(withMarks D q.with ++ ahead).length]?) h
        simp [hv, questionMark] at hget
      refine ⟨fun _ => ?_, hbehindNil⟩
      rw [hbehind] at hbehindNil
      simp only [List.append_eq_nil_iff] at hbehindNil
      exact hbehindNil.2.1
    · rintro ⟨-, hbehindNil⟩
      rw [hbehind] at hbehindNil
      simp only [List.append_eq_nil_iff] at hbehindNil
      obtain ⟨rfl, horder, hfetch, hrest⟩ := hbehindNil
      rw [hms, hmarks, hshown rfl, horder, hfetch, hrest]
      simp

/-- The values are bound as meant exactly when their origins have the meanings
of the placeholders. -/
theorem positionsBound_iff_origins {initialBinds generated : List FilterValue} {ts : List Tok}
    (hseparated : Separated ts) (hquestions : ∀ m ∈ marks ts, m.text = "?")
    (hlength : initialBinds.length = n) :
    PositionsBound initialBinds (marks ts)
        (numberedAnew baseSql (render ts) (initialBinds ++ generated)) ↔
      (renumberedOrigins n generated baseSql (render ts)).map (meaning initialBinds) =
        ((marks ts).map Mark.origin).map (meaning initialBinds) := by
  have hvalues : (numberedAnew baseSql (render ts) (initialBinds ++ generated)).bindValues.map
      some = (renumberedOrigins n generated baseSql (render ts)).map (meaning initialBinds) := by
    rw [← bindValues_numberedAnew hlength.ge, List.take_of_length_le hlength.le]
  rw [← hvalues, List.map_map, eq_comm]
  constructor
  · exact fun h => forall₂_read_iff.mp h.bound
  · exact fun h => ⟨⟨_, (render_renumberedTokens _ _ _ hseparated).symm,
      marks_renumberedTokens _ _ _ hquestions⟩, hquestions, forall₂_read_iff.mpr h⟩

/-- Whatever the arguments are, the `i`-th `?` of a built text gets the value
it stands for. -/
def AlwaysPositionsBound (cfg : Config) (D : Display) (parser : Core.Parser) (baseSql : List Char)
    (params : Params) (n : ℕ) (ms : List Mark) : Prop :=
  ∀ initialBinds, initialBinds.length = n → ∀ built,
    buildDynamicSql cfg D parser baseSql params initialBinds = .ok built →
      PositionsBound initialBinds ms built

/-- Requests that keep the base placeholders in place get every `?` its value
when nothing in the base statement and the field names looks like a `$number`,
and of such inputs no others do. Where a word has a `$number`, the numbering
takes it for a placeholder and builds the bind values from these numbers. -/
theorem positionsBound_of_kept {initialBinds₀ binds : List FilterValue} {st : Statement}
    (hbackend : cfg.backend = .mysql)
    (hparse : Core.parseSql parser baseSql = .ok (some (.query q)))
    (hbase : PositionalBase D q n) (hcursor : ¬HasCursor params)
    (hlength₀ : initialBinds₀.length = n)
    (hstatement : dynamicStatement cfg (.query q) params initialBinds₀
      (maxPlaceholder (collectNumberedPlaceholders baseSql)) = .ok (st, binds)) :
    (PlainInput D params q ∧ KeepsPositions D params q (setExprValues cfg params q.body) →
      AlwaysPositionsBound cfg D parser baseSql params n (marks (D.statement st))) ∧
    (PlainInput D params q →
      AlwaysPositionsBound cfg D parser baseSql params n (marks (D.statement st)) →
        KeepsPositions D params q (setExprValues cfg params q.body)) := by
  suffices hexact : PlainInput D params q →
      (AlwaysPositionsBound cfg D parser baseSql params n (marks (D.statement st)) ↔
        KeepsPositions D params q (setExprValues cfg params q.body)) from
    ⟨fun h => (hexact h.1).mpr h.2, fun h => (hexact h).mp⟩
  intro hplain
  have hplainWords := hplain.statement D hstatement
  obtain ⟨hrun, q', rfl, hprinted⟩ := dynamicStatement_spec D hstatement
  have hkeeps := hbase.map_origin_iff hcursor hprinted
  have hmem := hprinted.mem_iff D
  generalize hgenerated : setExprValues cfg params q.body = generated at *
  rw [show D.statement (.query q') = D.query q' from rfl]
  have hquestions : ∀ m ∈ marks (D.query q'), m.text = "?" := by
    intro m hm
    rcases (hmem m).mp hm with hkept | hissued
    · obtain ⟨i, -, rfl⟩ :=
        exists_questionMark_of_mem hbase.printed (keptMarks_subset D params q hkept)
      rfl
    · exact text_of_mem_issued hbackend hissued
  have hknown := hprinted.origin_mem hbase.printed
  have hbuilt : ∀ initialBinds : List FilterValue, initialBinds.length = n →
      buildDynamicSql cfg D parser baseSql params initialBinds =
        .ok (numberedAnew baseSql (render (D.query q')) (initialBinds ++ generated)) :=
    fun initialBinds hlength => buildDynamicSql_of_statement D hparse hbase.limit
      (hrun initialBinds (hlength.trans hlength₀.symm))
  have hbound : ∀ initialBinds : List FilterValue, initialBinds.length = n →
      (PositionsBound initialBinds (marks (D.query q'))
          (numberedAnew baseSql (render (D.query q')) (initialBinds ++ generated)) ↔
        (renumberedOrigins n generated baseSql (render (D.query q'))).map (meaning initialBinds) =
          ((marks (D.query q')).map Mark.origin).map (meaning initialBinds)) :=
    fun initialBinds hlength => positionsBound_iff_origins (D.separated q') hquestions hlength
  have hnumbers : placeholderNumbers (render (D.query q')) = [] := by
    rw [placeholderNumbers_of_plainWords (D.separated q') hplainWords]
    refine List.flatMap_eq_nil_iff.mpr fun m hm => ?_
    rw [hquestions m hm]
    exact placeholderNumbers_question
  have hunnumbered : renumberedOrigins n generated baseSql (render (D.query q')) =
      bindOrigins n generated := renumberedOrigins_of_no_numbers hnumbers
  rw [← hkeeps, AlwaysPositionsBound, forall_built_iff D hbuilt fun initialBinds built =>
    PositionsBound initialBinds (marks (D.query q')) built]
  constructor
  · intro h
    obtain ⟨initialBinds, hlength, htelling⟩ := exists_telling n generated
    rw [← hunnumbered, eq_comm]
    refine eq_of_map_eq htelling (fun o ho => mem_of_mem_renumbered_binds ho) ?_
      ((hbound initialBinds hlength).mp (h initialBinds hlength))
    intro o ho
    obtain ⟨m, hm, rfl⟩ := List.mem_map.mp ho
    exact hknown m hm
  · intro h initialBinds hlength
    rw [hbound initialBinds hlength, hunnumbered, h]

/-! ### Examples -/

namespace PositionalExample

open Reference

def argument (i : ℕ) : Expr := valueExpr (.placeholder "?" (.argument i))

/-- `SELECT * FROM users WHERE age > ?` -/
def adults : Select :=
  simpleSelect [.wildcard] "users" (some (gt "age" (argument 0)))

/-- `SELECT * FROM users WHERE age > ? UNION SELECT * FROM guests WHERE visits > ?` -/
def union : Query :=
  simpleQuery (.setOperation .union .none (.select adults)
    (.select (simpleSelect [.wildcard] "guests" (some (gt "visits" (argument 1))))))

end PositionalExample

open PositionalExample Example Reference

/-- A filter on a UNION: the city is bound to the visits of the second branch
and the visits to the city of the first one. -/
theorem positions_shifted :
    ∃ st binds,
      dynamicStatement (build .mysql) (.query union) inBonn [.int 18, .int 5] 0 = .ok (st, binds) ∧
      ∃ built,
        buildDynamicSql (build .mysql) Display.reference (parserOf union) (text union) inBonn
          [.int 18, .int 5] = .ok built ∧
        built.sql = ("SELECT * FROM users WHERE age > ? AND city = ? UNION " ++
          "SELECT * FROM guests WHERE visits > ? AND city = ?").toList ∧
        built.bindValues = [.int 18, .int 5, .string "Bonn", .string "Bonn"] ∧
        ¬PositionsBound [.int 18, .int 5] (marks (Display.reference.statement st)) built := by
  refine ⟨_, _, rfl, _, rfl, by decide, by decide, fun h => ?_⟩
  have hsecond := (List.forall₂_cons.mp (List.forall₂_cons.mp h.bound).2).1
  revert hsecond
  decide

/-- With all base placeholders ahead of the only WHERE's end, they are kept. -/
theorem positions_kept :
    ∃ st binds,
      dynamicStatement (build .mysql) (.query (simpleQuery (.select adults))) inBonn [.int 18] 0 =
        .ok (st, binds) ∧
      ∃ built,
        buildDynamicSql (build .mysql) Display.reference (parserOf (simpleQuery (.select adults)))
          (text (simpleQuery (.select adults))) inBonn [.int 18] = .ok built ∧
        PositionsBound [.int 18] (marks (Display.reference.statement st)) built := by
  refine ⟨_, _, rfl, _, rfl, ?_⟩
  have hcursor : ¬HasCursor inBonn := by
    rintro ⟨cursor, hcursor, -⟩
    cases hcursor
  exact (@positionsBound_of_kept (build .mysql) Display.reference
    (parserOf (simpleQuery (.select adults))) (text (simpleQuery (.select adults)))
    (simpleQuery (.select adults)) inBonn 1 [.int 18] _ _ rfl rfl ⟨by decide, by decide⟩ hcursor rfl
    rfl).1 ⟨⟨by decide, plainRequest_inBonn⟩, by decide, by decide⟩ _ rfl _ rfl

end SqlxData.Dynamic
