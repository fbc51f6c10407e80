import Guardian.Coordinator.PollStats
import Mathlib.Tactic.Linarith

/-!
# The end of a poll

The page loop leaves off at a page that fails, lists nothing, or whose number times the page
size in its own answer reaches the total in it, number and product as doubles. Nothing else in
the answers bounds the loop, and a poll ends exactly when each of its loops does.
-/

namespace Guardian
open Effect Program

/-- The answers to page requests, in the order in which they are asked. -/
abbrev PageAnswers := ℕ → Except Caught Json

def PageAnswers.from (answers : PageAnswers) (n : ℕ) : PageAnswers := fun k => answers (n + k)

theorem PageAnswers.from_from (answers : PageAnswers) (m n : ℕ) :
    (answers.from m).from n = answers.from (m + n) :=
  funext fun k => congrArg answers (Nat.add_assoc m n k).symm

def AnsweredBy {G : Signature} (answers : PageAnswers) (tr : History G) : Prop :=
  ∀ k request, (pageRequests tr)[k]? = some request → request.answer = answers k

/-- The number of a loop's page, the first one counted as zero. -/
def pageAt (k : ℕ) : ℕ := min (k + 1) (2 ^ 53)

theorem nextPage_pageAt (k : ℕ) : nextPage (pageAt k) = pageAt (k + 1) := by
  simp only [nextPage, pageAt]
  omega

def StopsAt (page : ℕ) (answer : Except Caught Json) : Prop :=
  ∀ j requests, answer = .ok j → zSigningRequestPage j = some requests → IsLastPage page requests

def IsPage (answer : Except Caught Json) : Prop :=
  ∃ j requests, answer = .ok j ∧ zSigningRequestPage j = some requests

structure FirstStop (answers : PageAnswers) (k : ℕ) : Prop where
  stops : StopsAt (pageAt k) (answers k)
  first : ∀ i < k, ¬StopsAt (pageAt i) (answers i)

theorem exists_firstStop {answers : PageAnswers} (h : ∃ k, StopsAt (pageAt k) (answers k)) :
    ∃ k, FirstStop answers k := by
  classical
  exact ⟨Nat.find h, Nat.find_spec h, fun i => Nat.find_min h⟩

/-- Each of the loops of a poll leaves off, the next one behind the answers of the last. -/
def LoopsStop : ℕ → PageAnswers → Prop
  | 0, _ => True
  | loops + 1, answers => ∃ k, FirstStop answers k ∧
      (IsPage (answers k) → LoopsStop loops (answers.from (k + 1)))

section Ends
variable {G : Signature} {options : GuardianCoordinatorOptions G} {answers : PageAnswers}
  {filter : PollFilter} {tr : History G}

/-- However the poll is bounded and its rows are answered, some number of requests suffices. -/
def FilterEnds (options : GuardianCoordinatorOptions G) (answers : PageAnswers)
    (filter : PollFilter) : Prop :=
  ∃ n, ∀ (fuel : ℕ) (s : PollState) (tr : History G) (r : Except Caught Unit × PollState),
    Executes (pollPages options filter fuel 1 s) tr r → AnsweredBy answers tr →
      (pageRequests tr).length ≤ n

def PollEnds (options : GuardianCoordinatorOptions G) (answers : PageAnswers) : Prop :=
  ∃ n, ∀ (fuel : ℕ) (timeouts : SignTimeouts) (tr : History G)
    (r : Except Caught Unit × PollState),
    Executes (runGuardianCoordinatorOnce options fuel timeouts) tr r → AnsweredBy answers tr →
      (pageRequests tr).length ≤ n

theorem answeredBy_append {tr' : History G} : AnsweredBy answers (tr ++ tr') ↔
    AnsweredBy answers tr ∧ AnsweredBy (answers.from (pageRequests tr).length) tr' := by
  unfold AnsweredBy
  rw [pageRequests_append]
  constructor
  · intro h
    refine ⟨fun k request hk => h k request ?_, fun k request hk => h _ request ?_⟩
    · rwa [List.getElem?_append_left (List.getElem?_eq_some_iff.mp hk).1]
    · rwa [List.getElem?_append_right (Nat.le_add_right _ _), Nat.add_sub_cancel_left]
  · intro h k request hk
    rcases Nat.lt_or_ge k (pageRequests tr).length with hlt | hge
    · rw [List.getElem?_append_left hlt] at hk
      exact h.1 k request hk
    · rw [List.getElem?_append_right hge] at hk
      have hanswer := h.2 _ request hk
      rwa [PageAnswers.from, Nat.add_sub_cancel' hge] at hanswer

theorem pageRequests_page {page : ℕ} {answer : Except Caught Json} (tr : History G) :
    pageRequests (pageAnswered options filter page answer :: tr) =
      ⟨filter, page, answer⟩ :: pageRequests tr := rfl

theorem answeredBy_page {page : ℕ} {answer : Except Caught Json} :
    AnsweredBy answers (pageAnswered options filter page answer :: tr) ↔
      answer = answers 0 ∧ AnsweredBy (answers.from 1) tr := by
  rw [show pageAnswered options filter page answer :: tr =
    [pageAnswered options filter page answer] ++ tr from rfl, answeredBy_append]
  refine and_congr_left fun _ => ⟨fun h => h 0 _ rfl, fun h k request hk => ?_⟩
  cases k with
  | zero =>
    cases hk
    exact h
  | succ k => cases hk

theorem answeredBy_of_none (h : pageRequests tr = []) : AnsweredBy answers tr := by
  intro k request hk
  rw [h] at hk
  cases hk

theorem executes_some (settles : ∀ op, Nonempty (G.Answer op)) {α : Type}
    (p : Coordinating G α) : ∃ tr a, Executes p tr a := by
  have hsettles : ∀ op : (coord G).Op, Nonempty ((coord G).Answer op) := by
    intro op
    match op with
    | .inl op => exact settles op
    | .inr (.getSigningRequests ..) => exact ⟨.ok .null⟩
    | .inr (.putNonce ..) => exact ⟨.ok .null⟩
    | .inr (.putSubmission ..) => exact ⟨.ok .null⟩
    | .inr (.log _) => exact ⟨()⟩
  exact ⟨_, _, executes_trace (fun op => (hsettles op).some) p⟩

theorem pollPages_fuel {fuel page : ℕ} {s : PollState} {r : Except Caught Unit × PollState}
    (h : Executes (pollPages options filter fuel page s) tr r) :
    (pageRequests tr).length ≤ fuel := by
  induction fuel generalizing page s tr with
  | zero =>
    obtain ⟨rfl, _⟩ := runs_done.mp h
    exact Nat.zero_le _
  | succ fuel ih =>
    cases pollPages_cases h with
    | failed e _ => exact Nat.succ_le_succ (Nat.zero_le _)
    | last _ hrows _ =>
      rw [pageRequests_page, (handleItems_tallied hrows).2]
      exact Nat.succ_le_succ (Nat.zero_le _)
    | next _ hrows _ hrest =>
      rw [pageRequests_page, pageRequests_append, (handleItems_tallied hrows).2]
      exact Nat.succ_le_succ (ih hrest)

/-- A loop asks up to the first answer that stops it and, unless its fuel runs out before, exactly
so far; it fails if this is no page. -/
theorem pollPages_stops {fuel i k : ℕ} {s : PollState} {r : Except Caught Unit × PollState}
    (hstop : FirstStop answers k) (hle : i ≤ k)
    (h : Executes (pollPages options filter fuel (pageAt i) s) tr r)
    (hanswered : AnsweredBy (answers.from i) tr) :
    (pageRequests tr).length + i ≤ k + 1 ∧ (k + 1 ≤ fuel + i →
      (pageRequests tr).length + i = k + 1 ∧
        ((∃ e, r.1 = .error e) ∧ ¬IsPage (answers k) ∨ r.1 = .ok () ∧ IsPage (answers k))) := by
  have hlast : StopsAt (pageAt i) (answers i) → i = k := fun hstops =>
    Nat.le_antisymm hle (Nat.le_of_not_lt fun hlt => hstop.first i hlt hstops)
  induction fuel generalizing i s tr with
  | zero =>
    obtain ⟨rfl, _⟩ := runs_done.mp h
    refine ⟨?_, fun hfuel => ?_⟩
    · show 0 + i ≤ k + 1
      omega
    · omega
  | succ fuel ih =>
    cases pollPages_cases h with
    | @failed answer e hunparsed =>
      obtain ⟨hanswer, -⟩ := answeredBy_page.mp hanswered
      have hanswer : answer = answers i := hanswer
      subst hanswer
      have hnone : ¬IsPage (answers i) := by
        rintro ⟨j, requests, hj, hparses⟩
        rw [hunparsed j hj] at hparses
        cases hparses
      obtain rfl := hlast fun j requests hj hparses => absurd ⟨j, requests, hj, hparses⟩ hnone
      refine ⟨Nat.le_of_eq (Nat.add_comm 1 i), fun _ => ⟨Nat.add_comm 1 i, .inl ⟨⟨e, rfl⟩, hnone⟩⟩⟩
    | @last j requests tr s' hparses hrows hreach =>
      obtain ⟨hanswer, -⟩ := answeredBy_page.mp hanswered
      have hanswer : Except.ok j = answers i := hanswer
      obtain rfl : i = k := hlast fun j' requests' hj hparses' => by
        cases hanswer.trans hj
        cases hparses.symm.trans hparses'
        exact hreach
      have hone : (pageRequests (pageAnswered options filter (pageAt i) (.ok j) :: tr)).length + i =
          i + 1 := by
        rw [pageRequests_page, (handleItems_tallied hrows).2]
        exact Nat.add_comm 1 i
      exact ⟨hone.le, fun _ => ⟨hone, .inr ⟨rfl, j, requests, hanswer.symm, hparses⟩⟩⟩
    | @next j requests tr tr' s' r hparses hrows hmore hrest =>
      obtain ⟨hanswer, hlater⟩ := answeredBy_page.mp hanswered
      have hanswer : Except.ok j = answers i := hanswer
      have hne : i ≠ k := by
        rintro rfl
        exact hmore (hstop.stops j requests hanswer.symm hparses)
      have hnone := (handleItems_tallied hrows).2
      rw [PageAnswers.from_from] at hlater
      have hrows' := (answeredBy_append.mp hlater).2
      rw [hnone, PageAnswers.from_from] at hrows'
      rw [nextPage_pageAt] at hrest
      obtain ⟨hbound, hexact⟩ := ih (by omega) hrest hrows' fun hstops =>
        Nat.le_antisymm (by omega) (Nat.le_of_not_lt fun hlt => hstop.first _ hlt hstops)
      have hlength : (pageRequests (pageAnswered options filter (pageAt i) (.ok j) ::
          (tr ++ tr'))).length = (pageRequests tr').length + 1 := by
        rw [pageRequests_page, pageRequests_append, hnone]
        rfl
      rw [hlength]
      refine ⟨by omega, fun hfuel => ?_⟩
      obtain ⟨hcount, hended⟩ := hexact (by omega)
      exact ⟨by omega, hended⟩

theorem pollPages_unparsed {fuel page : ℕ} {answer : Except Caught Json} (s : PollState)
    (h : ¬IsPage answer) : ∃ r, Executes (pollPages options filter (fuel + 1) page s)
      [pageAnswered options filter page answer] r := by
  cases answer with
  | error e => exact ⟨(.error e, s), executes_perform.mpr ⟨.error e, [], rfl, .refl _⟩⟩
  | ok j =>
    refine ⟨(.error .zodError, s), executes_perform.mpr ⟨.ok j, [], rfl, ?_⟩⟩
    rw [bind_done]
    dsimp only
    cases hparses : zSigningRequestPage j with
    | none => exact .refl _
    | some requests => exact absurd ⟨j, requests, rfl, hparses⟩ h

theorem pollPages_page {fuel page : ℕ} {j : Json} {requests : SigningRequestPage} {s s' : PollState}
    (hparses : zSigningRequestPage j = some requests)
    (hrows : Executes (handleItems options requests.items (s.fetch requests.items.length)) tr s') :
    (IsLastPage page requests → Executes (pollPages options filter (fuel + 1) page s)
      (pageAnswered options filter page (.ok j) :: tr) (.ok (), s')) ∧
    (¬IsLastPage page requests → ∀ tr' r,
      Executes (pollPages options filter fuel (nextPage page) s') tr' r →
        Executes (pollPages options filter (fuel + 1) page s)
          (pageAnswered options filter page (.ok j) :: (tr ++ tr')) r) := by
  have hpage : ∀ tr' r, Executes (if IsLastPage page requests then .done (.ok (), s')
        else pollPages options filter fuel (nextPage page) s') tr' r →
      Executes (pollPages options filter (fuel + 1) page s)
        (pageAnswered options filter page (.ok j) :: (tr ++ tr')) r := by
    intro tr' r hrest
    refine executes_perform.mpr ⟨.ok j, tr ++ tr', rfl, ?_⟩
    rw [bind_done]
    dsimp only
    rw [hparses]
    exact executes_bind.mpr ⟨tr, tr', s', rfl, hrows, hrest⟩
  constructor
  · intro hlast
    have hdone := hpage [] (.ok (), s') (by rw [if_pos hlast]; exact .refl _)
    rwa [List.append_nil] at hdone
  · intro hmore tr' r hrest
    exact hpage tr' r (by rwa [if_neg hmore])

/-- Any answers are given in some run, which goes on as long as its fuel if none of them stops. -/
theorem pollPages_answered (settles : ∀ op, Nonempty (G.Answer op)) (fuel i : ℕ) (s : PollState) :
    ∃ tr r, Executes (pollPages options filter fuel (pageAt i) s) tr r ∧
      AnsweredBy (answers.from i) tr ∧
      ((∀ k, ¬StopsAt (pageAt k) (answers k)) → (pageRequests tr).length = fuel) := by
  induction fuel generalizing i s with
  | zero => exact ⟨[], (.ok (), s), .refl _, answeredBy_of_none rfl, fun _ => rfl⟩
  | succ fuel ih =>
    by_cases hpage : IsPage (answers i)
    · obtain ⟨j, requests, hj, hparses⟩ := hpage
      obtain ⟨tr, s', hrows⟩ := executes_some settles
        (handleItems options requests.items (s.fetch requests.items.length))
      have hnone := (handleItems_tallied hrows).2
      by_cases hlast : IsLastPage (pageAt i) requests
      · refine ⟨_, _, (pollPages_page hparses hrows).1 hlast,
          answeredBy_page.mpr ⟨hj.symm, answeredBy_of_none hnone⟩, fun hendless => ?_⟩
        refine absurd (fun j' requests' hj' hparses' => ?_) (hendless i)
        cases hj.symm.trans hj'
        cases hparses.symm.trans hparses'
        exact hlast
      · obtain ⟨tr', r, hrest, hanswered, hlength⟩ := ih (i + 1) s'
        rw [← nextPage_pageAt] at hrest
        refine ⟨_, r, (pollPages_page hparses hrows).2 hlast tr' r hrest,
          answeredBy_page.mpr ⟨hj.symm, answeredBy_append.mpr ⟨answeredBy_of_none hnone, ?_⟩⟩,
          fun hendless => ?_⟩
        · rw [hnone, PageAnswers.from_from, PageAnswers.from_from]
          exact hanswered
        · rw [pageRequests_page, pageRequests_append, hnone, List.length_cons, List.nil_append,
            hlength hendless]
    · obtain ⟨r, hrun⟩ := @pollPages_unparsed G options filter fuel (pageAt i) _ s hpage
      refine ⟨_, r, hrun, answeredBy_page.mpr ⟨rfl, answeredBy_of_none rfl⟩, fun hendless => ?_⟩
      exact absurd (fun j requests hj hparses => absurd ⟨j, requests, hj, hparses⟩ hpage)
        (hendless i)

theorem filterEnds_iff (settles : ∀ op, Nonempty (G.Answer op)) :
    FilterEnds options answers filter ↔ ∃ k, StopsAt (pageAt k) (answers k) := by
  have hstart : answers.from 0 = answers := funext fun k => congrArg answers (Nat.zero_add k)
  constructor
  · intro hends
    by_contra hnever
    obtain ⟨n, hn⟩ := hends
    obtain ⟨tr, r, hrun, hanswered, hlength⟩ := @pollPages_answered G options answers filter settles
      (n + 1) 0 ⟨.empty, ⟨0, 0, 0, 0⟩⟩
    rw [hstart] at hanswered
    have hle := hn _ _ _ _ hrun hanswered
    rw [hlength fun k hk => hnever ⟨k, hk⟩] at hle
    omega
  · intro hstops
    obtain ⟨k, hfirst⟩ := exists_firstStop hstops
    refine ⟨k + 1, fun fuel s tr r hrun hanswered => ?_⟩
    rw [← hstart] at hanswered
    exact (pollPages_stops hfirst (Nat.zero_le k) hrun hanswered).1

theorem pollEach_fuel {fuel : ℕ} {filters : List PollFilter} {s : PollState}
    {r : Except Caught Unit × PollState} (h : Executes (pollEach options fuel filters s) tr r) :
    (pageRequests tr).length ≤ filters.length * fuel := by
  induction filters generalizing s tr with
  | nil =>
    obtain ⟨rfl, _⟩ := runs_done.mp h
    exact Nat.zero_le _
  | cons filter filters ih =>
    obtain ⟨tr₁, tr₂, r₁, rfl, h₁, h₂⟩ := executes_bind.mp h
    have hfirst := pollPages_fuel h₁
    rw [pageRequests_append, List.length_append, List.length_cons, Nat.add_mul, Nat.one_mul]
    match r₁, h₂ with
    | (.error e, s₁), h₂ =>
      obtain ⟨rfl, _⟩ := runs_done.mp h₂
      show _ + 0 ≤ _
      omega
    | (.ok _, s₁), h₂ =>
      have hrest := ih h₂
      omega

theorem pollEach_bounded {filters : List PollFilter} (h : LoopsStop filters.length answers) :
    ∃ n, ∀ (fuel : ℕ) (s : PollState) (tr : History G) (r : Except Caught Unit × PollState),
      Executes (pollEach options fuel filters s) tr r → AnsweredBy answers tr →
        (pageRequests tr).length ≤ n := by
  induction filters generalizing answers with
  | nil =>
    refine ⟨0, fun fuel s tr r hrun _ => ?_⟩
    obtain ⟨rfl, _⟩ := runs_done.mp hrun
    exact le_rfl
  | cons filter filters ih =>
    obtain ⟨k, hfirst, hrest⟩ := h
    obtain ⟨n, hn⟩ : ∃ n, IsPage (answers k) → ∀ (fuel : ℕ) (s : PollState) (tr : History G)
        (r : Except Caught Unit × PollState), Executes (pollEach options fuel filters s) tr r →
          AnsweredBy (answers.from (k + 1)) tr → (pageRequests tr).length ≤ n := by
      by_cases hpage : IsPage (answers k)
      · obtain ⟨n, hn⟩ := ih (hrest hpage)
        exact ⟨n, fun _ => hn⟩
      · exact ⟨0, fun hpage' => absurd hpage' hpage⟩
    -- a loop that runs out of fuel leaves the next one in the middle of its answers
    refine ⟨(filters.length + 1) * (k + 1) + n, fun fuel s tr r hrun hanswered => ?_⟩
    rcases Nat.lt_or_ge fuel (k + 1) with hshort | hlong
    · have hfuel := pollEach_fuel hrun
      have hmul : (filters.length + 1) * fuel ≤ (filters.length + 1) * (k + 1) :=
        Nat.mul_le_mul_left _ hshort.le
      rw [List.length_cons] at hfuel
      omega
    · obtain ⟨tr₁, tr₂, r₁, rfl, h₁, h₂⟩ := executes_bind.mp hrun
      obtain ⟨hanswered₁, hanswered₂⟩ := answeredBy_append.mp hanswered
      have hstart : answers.from 0 = answers := funext fun k => congrArg answers (Nat.zero_add k)
      rw [← hstart] at hanswered₁
      obtain ⟨hcount, hended⟩ := (pollPages_stops hfirst (Nat.zero_le k) h₁ hanswered₁).2 hlong
      rw [Nat.add_zero] at hcount
      rw [hcount] at hanswered₂
      have hone : k + 1 ≤ (filters.length + 1) * (k + 1) := Nat.le_mul_of_pos_left _ (by omega)
      rw [pageRequests_append, List.length_append, hcount]
      match r₁, h₂, hended with
      | (.error e, s₁), h₂, _ =>
        obtain ⟨rfl, _⟩ := runs_done.mp h₂
        show k + 1 + 0 ≤ _
        omega
      | (.ok _, s₁), h₂, hended =>
        rcases hended with ⟨⟨e, herror⟩, -⟩ | ⟨-, hpage⟩
        · cases herror
        · have hlater := hn hpage fuel s₁ tr₂ r h₂ hanswered₂
          omega

theorem pollEach_answered (settles : ∀ op, Nonempty (G.Answer op)) (fuel : ℕ)
    (filters : List PollFilter) (s : PollState) : ∃ tr r,
      Executes (pollEach options fuel filters s) tr r ∧ AnsweredBy answers tr := by
  induction filters generalizing answers s with
  | nil => exact ⟨[], (.ok (), s), .refl _, answeredBy_of_none rfl⟩
  | cons filter filters ih =>
    have hstart : answers.from 0 = answers := funext fun k => congrArg answers (Nat.zero_add k)
    obtain ⟨tr₁, r₁, h₁, hanswered₁, -⟩ := @pollPages_answered G options answers filter settles
      fuel 0 s
    rw [hstart] at hanswered₁
    match r₁, h₁ with
    | (.error e, s₁), h₁ =>
      refine ⟨tr₁ ++ [], (.error e, s₁), executes_bind.mpr ⟨tr₁, [], _, rfl, h₁, .refl _⟩, ?_⟩
      rwa [List.append_nil]
    | (.ok _, s₁), h₁ =>
      obtain ⟨tr₂, r₂, h₂, hanswered₂⟩ := @ih (answers.from (pageRequests tr₁).length) s₁
      exact ⟨tr₁ ++ tr₂, r₂, executes_bind.mpr ⟨tr₁, tr₂, _, rfl, h₁, h₂⟩,
        answeredBy_append.mpr ⟨hanswered₁, hanswered₂⟩⟩

theorem pollEach_endless (settles : ∀ op, Nonempty (G.Answer op)) {filters : List PollFilter}
    (h : ¬LoopsStop filters.length answers) (n : ℕ) : ∃ least, ∀ fuel ≥ least, ∀ s : PollState,
      ∃ tr r, Executes (pollEach options fuel filters s) tr r ∧ AnsweredBy answers tr ∧
        n ≤ (pageRequests tr).length := by
  induction filters generalizing answers with
  | nil => exact absurd trivial h
  | cons filter filters ih =>
    have hstart : answers.from 0 = answers := funext fun k => congrArg answers (Nat.zero_add k)
    by_cases hstops : ∃ k, StopsAt (pageAt k) (answers k)
    · obtain ⟨k, hfirst⟩ := exists_firstStop hstops
      obtain ⟨hpage, hrest⟩ : IsPage (answers k) ∧
          ¬LoopsStop filters.length (answers.from (k + 1)) :=
        Classical.not_imp.mp fun himp => h ⟨k, hfirst, himp⟩
      obtain ⟨least, hleast⟩ := ih hrest
      refine ⟨max (k + 1) least, fun fuel hfuel s => ?_⟩
      obtain ⟨tr₁, r₁, h₁, hanswered₁, -⟩ := @pollPages_answered G options answers filter settles
        fuel 0 s
      obtain ⟨hcount, hended⟩ := (pollPages_stops hfirst (Nat.zero_le k) h₁ hanswered₁).2
        ((le_max_left _ _).trans hfuel)
      rw [Nat.add_zero] at hcount
      rw [hstart] at hanswered₁
      match r₁, h₁, hended with
      | (.error e, s₁), h₁, hended =>
        rcases hended with ⟨-, hnone⟩ | ⟨hok, -⟩
        · exact absurd hpage hnone
        · cases hok
      | (.ok _, s₁), h₁, _ =>
        obtain ⟨tr₂, r₂, h₂, hanswered₂, hlength⟩ := hleast fuel ((le_max_right _ _).trans hfuel) s₁
        refine ⟨tr₁ ++ tr₂, r₂, executes_bind.mpr ⟨tr₁, tr₂, _, rfl, h₁, h₂⟩,
          answeredBy_append.mpr ⟨hanswered₁, by rwa [hcount]⟩, ?_⟩
        rw [pageRequests_append, List.length_append]
        omega
    · refine ⟨n, fun fuel hfuel s => ?_⟩
      obtain ⟨tr₁, r₁, h₁, hanswered₁, hlength⟩ := @pollPages_answered G options answers filter
        settles fuel 0 s
      rw [hstart] at hanswered₁
      have hlong := hlength fun k hk => hstops ⟨k, hk⟩
      match r₁, h₁ with
      | (.error e, s₁), h₁ =>
        refine ⟨tr₁ ++ [], (.error e, s₁), executes_bind.mpr ⟨tr₁, [], _, rfl, h₁, .refl _⟩, ?_⟩
        rw [List.append_nil, hlong]
        exact ⟨hanswered₁, hfuel⟩
      | (.ok _, s₁), h₁ =>
        obtain ⟨tr₂, r₂, h₂, hanswered₂⟩ := @pollEach_answered G options
          (answers.from (pageRequests tr₁).length) settles fuel filters s₁
        refine ⟨tr₁ ++ tr₂, r₂, executes_bind.mpr ⟨tr₁, tr₂, _, rfl, h₁, h₂⟩,
          answeredBy_append.mpr ⟨hanswered₁, hanswered₂⟩, ?_⟩
        rw [pageRequests_append, List.length_append]
        omega

theorem pollEnds_iff (settles : ∀ op, Nonempty (G.Answer op)) :
    PollEnds options answers ↔ LoopsStop (pollFilters options).length answers := by
  constructor
  · intro hends
    by_contra hnever
    obtain ⟨n, hn⟩ := hends
    obtain ⟨least, hleast⟩ := @pollEach_endless G options answers settles _ hnever (n + 1)
    obtain ⟨tr, r, hrun, hanswered, hlength⟩ := hleast least le_rfl ⟨.empty, ⟨0, 0, 0, 0⟩⟩
    have hle := hn least .empty tr r hrun hanswered
    omega
  · intro hstops
    obtain ⟨n, hn⟩ := pollEach_bounded hstops
    exact ⟨n, fun fuel timeouts tr r hrun hanswered => hn fuel _ tr r hrun hanswered⟩

/-- Page sizes above a positive one, and totals that the last page number there is reaches
with it. -/
structure SaneAnswers (answers : PageAnswers) (total size : ℚ) : Prop where
  size_pos : 0 < size
  reached : total ≤ Double.mul (2 ^ 53) size
  total : ∀ k j requests, answers k = .ok j → zSigningRequestPage j = some requests →
    requests.total ≤ total
  size : ∀ k j requests, answers k = .ok j → zSigningRequestPage j = some requests →
    size ≤ requests.pageSize

theorem SaneAnswers.stops {total size : ℚ} (h : SaneAnswers answers total size) :
    StopsAt (pageAt (2 ^ 53)) (answers (2 ^ 53)) := by
  intro j requests hanswer hparses
  have hpage : pageAt (2 ^ 53) = 2 ^ 53 := min_eq_right (Nat.le_succ _)
  refine .inr ?_
  rw [hpage]
  calc requests.total ≤ total := h.total _ j requests hanswer hparses
    _ ≤ Double.mul (2 ^ 53) size := h.reached
    _ ≤ Double.mul ((2 ^ 53 : ℕ) : ℚ) requests.pageSize := by
      rw [Nat.cast_pow, Nat.cast_ofNat]
      exact Double.mul_mono (by norm_num) h.size_pos.le (h.size _ j requests hanswer hparses)

theorem SaneAnswers.from {total size : ℚ} (h : SaneAnswers answers total size) (n : ℕ) :
    SaneAnswers (answers.from n) total size :=
  ⟨h.size_pos, h.reached, fun k => h.total (n + k), fun k => h.size (n + k)⟩

theorem SaneAnswers.loopsStop {total size : ℚ} (h : SaneAnswers answers total size) (loops : ℕ) :
    LoopsStop loops answers := by
  induction loops generalizing answers with
  | zero => trivial
  | succ loops ih =>
    obtain ⟨k, hfirst⟩ := exists_firstStop ⟨_, h.stops⟩
    exact ⟨k, hfirst, fun _ => ih (h.from _)⟩

end Ends

namespace Sample

def sizedPage (pageSize : ℚ) : Json :=
  .obj [("total", .num 1), ("page", .num 1), ("pageSize", .num pageSize),
    ("items", .arr [independentRow])]

theorem sizedPage_parses (pageSize : ℚ) :
    zSigningRequestPage (sizedPage pageSize) = some ⟨1, 1, pageSize, [independentRow]⟩ := rfl

end Sample

/-- A page size of zero, and a total of one row: the loop never leaves the first filter. -/
theorem poll_never_ends : ¬FilterEnds Sample.coordinatorOptions
      (fun _ => .ok (Sample.sizedPage 0)) ⟨some 1, none⟩ ∧
    ¬PollEnds Sample.coordinatorOptions fun _ => .ok (Sample.sizedPage 0) := by
  have hendless : ∀ page, ¬StopsAt page (.ok (Sample.sizedPage 0)) := by
    intro page hstops
    rcases hstops _ _ rfl (Sample.sizedPage_parses 0) with hempty | hreach
    · cases hempty
    · rw [ge_iff_le, Double.mul_zero_eq] at hreach
      exact absurd hreach (by norm_num)
  rw [filterEnds_iff fun op : Sample.noOps.Op => op.elim,
    pollEnds_iff fun op : Sample.noOps.Op => op.elim]
  refine ⟨fun hends => ?_, fun hends => ?_⟩
  · obtain ⟨k, hstops⟩ := hends
    exact hendless _ hstops
  · obtain ⟨k, hfirst, -⟩ := hends
    exact hendless _ hfirst.stops

/-- The page loop of a filter ends exactly when some answer stops it, and the poll when each of its
loops ends; bounded totals and page sizes above a positive bound see to that. -/
theorem poll_ends_iff {G : Signature} (options : GuardianCoordinatorOptions G)
    (settles : ∀ op, Nonempty (G.Answer op)) (answers : PageAnswers) :
    (∀ filter, FilterEnds options answers filter ↔ ∃ k, StopsAt (pageAt k) (answers k)) ∧
    (PollEnds options answers ↔ LoopsStop (pollFilters options).length answers) ∧
    ∀ total size, SaneAnswers answers total size →
      PollEnds options answers ∧ ∀ filter, FilterEnds options answers filter :=
  ⟨fun _ => filterEnds_iff settles, pollEnds_iff settles, fun _ _ h =>
    ⟨(pollEnds_iff settles).mpr (h.loopsStop _),
      fun _ => (filterEnds_iff settles).mpr ⟨_, h.stops⟩⟩⟩

theorem poll_ends_iff_sized :
    PollEnds Sample.coordinatorOptions fun _ => .ok (Sample.sizedPage 100) := by
  refine ((poll_ends_iff Sample.coordinatorOptions (fun op => op.elim) _).2.2 1 100 ?_).1
  refine ⟨by norm_num, by decide +kernel, fun k j requests hanswer hparses => ?_,
    fun k j requests hanswer hparses => ?_⟩
  · cases hanswer
    cases (Sample.sizedPage_parses 100).symm.trans hparses
    exact le_rfl
  · cases hanswer
    cases (Sample.sizedPage_parses 100).symm.trans hparses
    exact le_rfl

end Guardian
