import StructuredText.Build.Children

/-!
# How builders take their children

What each way to take children does, stated for the elements it finds in front. A builder is made of
these, so what it makes of given children follows step by step, and no proof opens the monad again.

* `Serve` — elements that serve as values, one for one.
* `Builder.Gives` — what a builder gives for given children, and the children it leaves.
* `takeWhile_gives`, `takeIf_gives`, `tokenIf_gives`, … — the rule of each way to take children.
-/

namespace StructuredText

/-! ## Elements that serve -/

/-- The elements serve as the values, one for one. -/
def Serve {α : Type} [OfElement α] (es : List Element) (as : List α) : Prop :=
  es.map ofElement? = as.map some

/-- None of the elements serves as a value of the type. -/
def Lacks (α : Type) [OfElement α] (es : List Element) : Prop :=
  ∀ e ∈ es, (ofElement? e : Option α) = none

/-- The first of the elements, if there is one, serves as no value of the type. -/
def Stops (α : Type) [OfElement α] (es : List Element) : Prop :=
  ∀ e ∈ es.head?, (ofElement? e : Option α) = none

/-- The first of the elements, if there is one, is no token of the rule. -/
def StopsToken (r : Grammar.Rule) (es : List Element) : Prop :=
  ∀ t, es.head? ≠ some (.token r t)

section Serve

variable {α : Type} [OfElement α] {e : Element} {es fs : List Element} {a : α} {as bs : List α}

/-- An element serves as a value where it is turned into it without a mismatch. -/
theorem ofElement?_eq_some_iff : ofElement? e = some a ↔ ofElement e = .ok a := by
  unfold ofElement?
  cases (ofElement e : Except Element α) with
  | error e' => simp [Except.toOption]
  | ok a' => simp [Except.toOption]

/-- An element that does not serve is handed back. -/
theorem ofElement?_eq_none_iff :
    (ofElement? e : Option α) = none ↔ (ofElement e : Except Element α) = .error e := by
  unfold ofElement?
  cases he : (ofElement e : Except Element α) with
  | error e' =>
      obtain rfl := OfElement.handsBack he
      simp [Except.toOption]
  | ok a => simp [Except.toOption]

theorem Serve.nil : Serve [] ([] : List α) := rfl

/-- An element that serves in front of others that do. -/
theorem Serve.cons (he : ofElement? e = some a) (hes : Serve es as) : Serve (e :: es) (a :: as) := by
  simp only [Serve, List.map_cons] at hes ⊢
  rw [he, hes]

theorem Serve.one (he : ofElement? e = some a) : Serve [e] [a] := .cons he .nil

/-- Two rows that serve, one behind the other. -/
theorem Serve.append (h : Serve es as) (h' : Serve fs bs) : Serve (es ++ fs) (as ++ bs) := by
  simp only [Serve, List.map_append] at h h' ⊢
  rw [h, h']

theorem serve_nil_iff : Serve es ([] : List α) ↔ es = [] := by
  simp [Serve]

/-- A row that serves as a list with a first entry has an element for it. -/
theorem serve_cons_iff :
    Serve es (a :: as) ↔ ∃ e fs, es = e :: fs ∧ ofElement? e = some a ∧ Serve fs as := by
  constructor
  · intro h
    cases es with
    | nil => simp [Serve] at h
    | cons e fs =>
        obtain ⟨he, hfs⟩ : ofElement? e = some a ∧ fs.map ofElement? = as.map some := by
          simpa [Serve] using h
        exact ⟨e, fs, rfl, he, hfs⟩
  · rintro ⟨e, fs, rfl, he, hfs⟩
    exact .cons he hfs

/-- A single value is served by a single element. -/
theorem serve_one_iff : Serve es [a] ↔ ∃ e, es = [e] ∧ ofElement? e = some a := by
  simp [serve_cons_iff, serve_nil_iff]

theorem Stops.nil : Stops α [] := by simp [Stops]

/-- It is enough that the next element does not serve. -/
theorem Stops.cons (he : (ofElement? e : Option α) = none) : Stops α (e :: es) := by
  simpa [Stops] using he

/-- Where no element serves, the next one does not either. -/
theorem Lacks.stops (h : Lacks α es) : Stops α es := fun e he => h e (List.mem_of_head? he)

theorem Lacks.append (hes : Lacks α es) (hfs : Lacks α fs) : Lacks α (es ++ fs) := by
  intro e he
  rcases List.mem_append.mp he with he | he
  · exact hes e he
  · exact hfs e he

theorem Lacks.cons (he : (ofElement? e : Option α) = none) (hes : Lacks α es) :
    Lacks α (e :: es) := by
  intro f hf
  rcases List.mem_cons.mp hf with rfl | hf
  · exact he
  · exact hes f hf

/-- Where there is no token at all, there is none of this rule. -/
theorem Lacks.stopsToken (h : Lacks Token es) {r : Grammar.Rule} : StopsToken r es := by
  intro t ht
  have hnone : (ofElement? (.token r t) : Option Token) = none := h _ (List.mem_of_head? ht)
  cases hnone

/-- Elements made of values serve as these values. -/
theorem serve_map {f : α → Element} (hf : ∀ a, ofElement? (f a) = some a) (as : List α) :
    Serve (as.map f) as := by
  simp [Serve, hf]

/-- What is served was served by one of the elements. -/
theorem Serve.exists_element (h : Serve es as) (ha : a ∈ as) : ∃ e ∈ es, ofElement? e = some a := by
  have hmem : some a ∈ es.map (ofElement? (α := α)) := by
    rw [h]
    exact List.mem_map_of_mem ha
  exact List.mem_map.mp hmem

/-- Each of the elements serves. -/
theorem Serve.exists_value (h : Serve es as) (he : e ∈ es) : ∃ a ∈ as, ofElement? e = some a := by
  have hmem : ofElement? e ∈ as.map some := by
    rw [← h]
    exact List.mem_map_of_mem he
  obtain ⟨a, ha, hea⟩ := List.mem_map.mp hmem
  exact ⟨a, ha, hea.symm⟩

/-- Elements of one type lack every type that has no elements in common with it. -/
theorem Serve.lacks {β : Type} [OfElement β] {bs : List β} (h : Serve es bs)
    (hdisjoint : ∀ (e : Element) (b : β), ofElement? e = some b → (ofElement? e : Option α) = none) :
    Lacks α es := by
  induction bs generalizing es with
  | nil =>
      obtain rfl := serve_nil_iff.mp h
      simp [Lacks]
  | cons b bs ih =>
      obtain ⟨e, es, rfl, he, hes⟩ := serve_cons_iff.mp h
      exact (ih hes).cons (hdisjoint e b he)

theorem StopsToken.nil {r : Grammar.Rule} : StopsToken r [] := by simp [StopsToken]

end Serve

/-- The case of the keyword of a flag does not matter. -/
theorem ofKeyword?_congr {α : Type} [Flag α] {s t : Text} (h : s.upperCase = t.upperCase) :
    Flags.ofKeyword? (α := α) s = Flags.ofKeyword? t := by
  simp only [Flags.ofKeyword?, h]

/-! ## The children of a construct -/

/-- The construct with other elements left to take. -/
def Children.holding (c : Children) (es : List Element) : Children := { c with rest := es }

namespace Children

variable {c : Children} {es fs : List Element}

@[simp] theorem holding_rest : (c.holding es).rest = es := rfl

@[simp] theorem holding_rule : (c.holding es).rule = c.rule := rfl

@[simp] theorem holding_anchor : (c.holding es).anchor = c.anchor := rfl

@[simp] theorem holding_holding : (c.holding es).holding fs = c.holding fs := rfl

end Children

/-! ## Builders -/

namespace Builder

open Grammar (Rule)

variable {α β : Type}

/-- The builder succeeds on the children `c` with the value `a`, and leaves the children `c'`. -/
def Gives (b : Builder α) (c : Children) (a : α) (c' : Children) : Prop := b.run c = (.ok a, c')

/-- What the steps of a builder give is what it builds. -/
theorem Gives.build {b : Builder α} {c c' : Children} {a : α} (h : b.Gives c a c') :
    b.build c = .ok a := congrArg Prod.fst h

theorem pure_gives {c : Children} {a : α} : (pure a : Builder α).Gives c a c := rfl

/-- A second step is taken with the children that the first one left, unless that failed. -/
theorem run_bind (b : Builder α) (f : α → Builder β) (c : Children) :
    (b >>= f).run c = match b.run c with
      | (.ok a, c₁) => (f a).run c₁
      | (.error e, c₁) => (.error e, c₁) := by
  show (match b.run c with | (o, c₁) => ExceptT.bindCont f o c₁) = _
  rcases b.run c with ⟨_ | _, _⟩ <;> rfl

/-- Steps one after the other, each with the children that are left. -/
theorem Gives.bind {b : Builder α} {f : α → Builder β} {c c₁ c' : Children} {a : α} {x : β}
    (h : b.Gives c a c₁) (hf : (f a).Gives c₁ x c') : (b >>= f).Gives c x c' := by
  rw [Gives, run_bind, h]
  exact hf

/-- What two builders give one after the other, the first gives and then the second. -/
theorem gives_bind_iff {b : Builder α} {f : α → Builder β} {c c' : Children} {x : β} :
    (b >>= f).Gives c x c' ↔ ∃ a c₁, b.Gives c a c₁ ∧ (f a).Gives c₁ x c' := by
  constructor
  · intro h
    rw [Gives, run_bind] at h
    rcases hb : b.run c with ⟨_ | a, c₁⟩
    · rw [hb] at h
      cases h
    · rw [hb] at h
      exact ⟨a, c₁, hb, h⟩
  · rintro ⟨a, c₁, hb, hf⟩
    exact hb.bind hf

theorem get_gives {c : Children} : (get : Builder Children).Gives c c c := rfl

theorem anchor_gives {c : Children} : Builder.anchor.Gives c c.anchor c := rfl

/-- The first child is removed, and the value made of it is given. -/
theorem tookFirst_gives {c : Children} {e : Element} {es : List Element} {a : α} :
    (tookFirst a).Gives (c.holding (e :: es)) a (c.holding es) := rfl

/-- The last child is removed, and the value made of it is given. -/
theorem tookLast_gives {c : Children} {e : Element} {es : List Element} {a : α} :
    (tookLast a).Gives (c.holding (es ++ [e])) a (c.holding es) := by
  have h : (tookLast a).Gives (c.holding (es ++ [e])) a (c.holding (es ++ [e]).dropLast) := rfl
  rwa [List.dropLast_concat] at h

theorem putFirst_gives {c : Children} {e : Element} {es : List Element} :
    (putFirst e).Gives (c.holding es) () (c.holding (e :: es)) := rfl

theorem putLast_gives {c : Children} {e : Element} {es : List Element} :
    (putLast e).Gives (c.holding es) () (c.holding (es ++ [e])) := rfl

variable [OfElement α] {c : Children} {e : Element} {es rest : List Element} {a : α}

/-- A child that serves is turned into the value it serves as. -/
theorem require_gives (he : ofElement? e = some a) : (require (some e)).Gives c a c := by
  simp only [require, ofElement?_eq_some_iff.mp he]
  exact pure_gives

/-- A child that serves is accepted. -/
theorem acceptOr_gives {putBack : Element → Builder Unit} (he : ofElement? e = some a) :
    (acceptOr α putBack e).Gives c (some a) c := by
  simp only [acceptOr, ofElement?_eq_some_iff.mp he]
  exact pure_gives

/-- A child that does not serve is put back. -/
theorem acceptOr_gives_none {putBack : Element → Builder Unit} {c' : Children}
    (he : (ofElement? e : Option α) = none) (hback : (putBack e).Gives c () c') :
    (acceptOr α putBack e).Gives c none c' := by
  simp only [acceptOr, ofElement?_eq_none_iff.mp he]
  exact hback.bind pure_gives

/-- The first child is taken, if it serves. -/
theorem take_gives (he : ofElement? e = some a) :
    (take α).Gives (c.holding (e :: rest)) a (c.holding rest) :=
  get_gives.bind (tookFirst_gives.bind (require_gives he))

/-- The last child is taken, if it serves. -/
theorem takeLast_gives (he : ofElement? e = some a) :
    (takeLast α).Gives (c.holding (es ++ [e])) a (c.holding es) := by
  refine get_gives.bind (tookLast_gives.bind ?_)
  simp only [Children.holding_rest, List.getLast?_concat]
  exact require_gives he

/-- Takes the element in front that may be missing. -/
theorem takeIf_gives {a : Option α} (h : Serve es a.toList) (hstop : a = none → Stops α rest) :
    (takeIf α).Gives (c.holding (es ++ rest)) a (c.holding rest) := by
  refine get_gives.bind ?_
  cases a with
  | none =>
      obtain rfl := serve_nil_iff.mp h
      cases rest with
      | nil => exact pure_gives
      | cons e rest =>
          exact tookFirst_gives.bind (acceptOr_gives_none (hstop rfl e rfl) putFirst_gives)
  | some a =>
      obtain ⟨e, rfl, he⟩ := serve_one_iff.mp h
      exact tookFirst_gives.bind (acceptOr_gives he)

/-- An optional child that is the last one. -/
theorem takeIf_gives_last {a : Option α} (h : Serve es a.toList) :
    (takeIf α).Gives (c.holding es) a (c.holding []) := by
  have h : (takeIf α).Gives (c.holding (es ++ [])) a (c.holding []) :=
    takeIf_gives h fun _ => .nil
  rwa [List.append_nil] at h

/-- Where the next child does not serve, nothing is taken. -/
theorem takeIf_gives_none (hstop : Stops α rest) :
    (takeIf α).Gives (c.holding rest) none (c.holding rest) :=
  takeIf_gives (a := none) .nil fun _ => hstop

theorem takeLastIf_gives_nil : (takeLastIf α).Gives (c.holding []) none (c.holding []) := rfl

/-- Where the last child does not serve, nothing is taken. -/
theorem takeLastIf_gives_none (he : (ofElement? e : Option α) = none) :
    (takeLastIf α).Gives (c.holding (es ++ [e])) none (c.holding (es ++ [e])) := by
  refine get_gives.bind ?_
  simp only [Children.holding_rest, List.getLast?_concat]
  exact tookLast_gives.bind (acceptOr_gives_none he putLast_gives)

/-- Takes the element at the end that may be missing. -/
theorem takeLastIf_gives {a : Option α} (h : Serve es a.toList)
    (hlacks : a = none → Lacks α rest) :
    (takeLastIf α).Gives (c.holding (rest ++ es)) a (c.holding rest) := by
  cases a with
  | none =>
      obtain rfl := serve_nil_iff.mp h
      rw [List.append_nil]
      rcases List.eq_nil_or_concat rest with rfl | ⟨front, e, hrest⟩
      · exact takeLastIf_gives_nil
      · rw [List.concat_eq_append] at hrest
        subst hrest
        exact takeLastIf_gives_none (hlacks rfl e (by simp))
  | some a =>
      obtain ⟨e, rfl, he⟩ := serve_one_iff.mp h
      refine get_gives.bind ?_
      simp only [Children.holding_rest, List.getLast?_concat]
      exact tookLast_gives.bind (acceptOr_gives he)

/-- A row is split where the first element stands that does not serve. -/
theorem splitWhile_append {as : List α} (h : Serve es as) (hstop : Stops α rest) :
    splitWhile α (es ++ rest) = (as, rest) := by
  induction as generalizing es with
  | nil =>
      obtain rfl := serve_nil_iff.mp h
      cases rest with
      | nil => rfl
      | cons e rest =>
          simp [splitWhile, ofElement?_eq_none_iff.mp (hstop e rfl)]
  | cons a as ih =>
      obtain ⟨e, fs, rfl, he, hfs⟩ := serve_cons_iff.mp h
      simp only [List.cons_append, splitWhile, ofElement?_eq_some_iff.mp he, ih hfs]

/-- The children that serve are taken from the front, up to the first that does not. -/
theorem takeWhile_gives {as : List α} (h : Serve es as) (hstop : Stops α rest) :
    (takeWhile α).Gives (c.holding (es ++ rest)) as (c.holding rest) := by
  have hrun : (takeWhile α).Gives (c.holding (es ++ rest)) (splitWhile α (es ++ rest)).1
      (c.holding (splitWhile α (es ++ rest)).2) := rfl
  rwa [splitWhile_append h hstop] at hrun

/-- If all children serve, none is left. -/
theorem takeWhile_gives_all {as : List α} (h : Serve es as) :
    (takeWhile α).Gives (c.holding es) as (c.holding []) := by
  have h := takeWhile_gives (c := c) h Stops.nil
  rwa [List.append_nil] at h

/-- Takes the token in front that may be missing. -/
theorem tokenIf_gives {r : Rule} {t : Option Token} (hstop : t = none → StopsToken r rest) :
    (tokenIf r).Gives (c.holding (t.toList.map (.token r) ++ rest)) t (c.holding rest) := by
  refine get_gives.bind ?_
  cases t with
  | some t =>
      simp only [Option.toList_some, List.map_cons, List.map_nil, List.cons_append, List.nil_append,
        Children.holding_rest, if_true]
      exact tookFirst_gives
  | none =>
      simp only [Option.toList_none, List.map_nil, List.nil_append, Children.holding_rest]
      split
      · rename_i r' t es
        have hr : r' ≠ r := by
          rintro rfl
          exact hstop rfl t rfl
        rw [if_neg hr]
        exact pure_gives
      · exact pure_gives

/-- An optional token that is the last child. -/
theorem tokenIf_gives_last {r : Rule} {t : Option Token} :
    (tokenIf r).Gives (c.holding (t.toList.map (.token r))) t (c.holding []) := by
  have h : (tokenIf r).Gives (c.holding (t.toList.map (.token r) ++ [])) t (c.holding []) :=
    tokenIf_gives fun _ => .nil
  rwa [List.append_nil] at h

/-- A token of the given rule is taken. -/
theorem token_gives {r : Rule} {t : Token} :
    (token r).Gives (c.holding (.token r t :: rest)) t (c.holding rest) :=
  (tokenIf_gives (t := some t) (by simp)).bind pure_gives

/-- A list of tokens is taken as one child. -/
theorem tokenListIf_some {r : Rule} {ts : List Token} :
    (tokenListIf r).Gives (c.holding (.tokens r ts :: rest)) (some ts) (c.holding rest) := by
  refine get_gives.bind ?_
  simp only [Children.holding_rest, if_true]
  exact tookFirst_gives

/-- Where the next child is no list of tokens, none is taken. -/
theorem tokenListIf_none {r : Rule} (hstop : ∀ ts, rest.head? ≠ some (.tokens r ts)) :
    (tokenListIf r).Gives (c.holding rest) none (c.holding rest) := by
  refine get_gives.bind ?_
  simp only [Children.holding_rest]
  split
  · rename_i r' ts es
    have hr : r' ≠ r := by
      rintro rfl
      exact hstop ts rfl
    rw [if_neg hr]
    exact pure_gives
  · exact pure_gives

theorem tokenList_gives {r : Rule} {ts : List Token} :
    (tokenList r).Gives (c.holding (.tokens r ts :: rest)) ts (c.holding rest) :=
  tokenListIf_some.bind pure_gives

theorem single_gives : single.Gives (c.holding [e]) e (c.holding [e]) := rfl

/-- A builder may end where no children are left. -/
theorem finish_gives : finish.Gives (c.holding []) () (c.holding []) := rfl

/-- A row with an entry passes the check for one. -/
theorem nonEmpty_gives {β : Type} {what : String} {as : List β} (h : as ≠ []) :
    (nonEmpty what as).Gives c as c := by
  have hempty : as.isEmpty = false := by simpa using h
  simp only [nonEmpty, hempty]
  exact pure_gives

end Builder

end StructuredText
