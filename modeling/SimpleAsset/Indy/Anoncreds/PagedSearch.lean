import SimpleAsset.Library.Cursor
import SimpleAsset.Library.Runs
import SimpleAsset.Indy.Anoncreds.CredentialSearch
import SimpleAsset.Indy.Wallet.MapRefinement

/-! The pages of a search for a proof request, and the credentials that they are taken from. -/
namespace SimpleAsset.Indy.Anoncreds
open SimpleAsset.Library
open Wallet (Cipher Sqlite StorageRecord)

section Page
variable {Signature : Type} (C : Cipher) (lc : Lowercase) (codec : CredentialCodec Signature)

/-- The credentials of the search that satisfy its predicate. -/
def SearchForProofRequest.matching (s : SearchForProofRequest) : List RequestedCredential :=
  given (requestedCredential C lc codec s) s.search.records

/-- A count beyond one stops nothing: the credentials that are left have to fit on the page, and a
failure must not find any on it. -/
def SearchForProofRequest.Fits (s : SearchForProofRequest) (count : ℕ) : Prop :=
  count ≤ 1 ∨ (givenBefore (requestedCredential C lc codec s) s.search.records).length ≤
    if s.search.records.all (isRead (requestedCredential C lc codec s)) then count else 0

/-- A page of at most `count` credentials, and fewer only when none is left. -/
structure PageOf (count : ℕ) (page : Outcome (List RequestedCredential))
    (left : List RequestedCredential) : Prop where
  length : ∀ credentials, page = .ok credentials → credentials.length ≤ count
  fewer : ∀ credentials, page = .ok credentials → credentials.length < count → left = []

variable {C lc codec} {round : StorageRecord → Outcome (Option RequestedCredential)}

theorem loop_one (credentials : List RequestedCredential) (records : List StorageRecord) :
    (∃ x rest, requestedCredentialsLoop round
      (some 1) credentials records = (.ok (credentials ++ [x]), rest) ∧
      given round records = x :: given round rest) ∨
    (requestedCredentialsLoop round (some 1) credentials records = (.ok credentials, []) ∧
      given round records = []) ∨
    ∃ fault rest,
      requestedCredentialsLoop round (some 1) credentials records = (.error fault, rest) ∧
      given round records = given round rest := by
  induction records with
  | nil => exact .inr (.inl ⟨rfl, rfl⟩)
  | cons record records ih =>
    unfold requestedCredentialsLoop
    rcases hround : round record with fault | _ | x
    · exact .inr (.inr ⟨fault, records, rfl, given_cons_error hround⟩)
    · rw [given_cons_skip hround]
      exact ih
    · exact .inl ⟨x, records, rfl, given_cons_some hround⟩

/-- A larger count: the loop goes on to the end, or to a failure. -/
theorem loop_more {count : ℕ} (hcount : 1 < count) (credentials : List RequestedCredential)
    (records : List StorageRecord) :
    (records.all (isRead round) = true ∧
      requestedCredentialsLoop round (some count) credentials records =
        (.ok (credentials ++ given round records), [])) ∨
    (records.all (isRead round) = false ∧ ∃ fault,
      requestedCredentialsLoop round (some count) credentials records =
        (.error fault, afterFailure round records)) := by
  induction records generalizing credentials with
  | nil => exact .inl ⟨rfl, by rw [given_nil, List.append_nil]; rfl⟩
  | cons record records ih =>
    unfold requestedCredentialsLoop
    rcases hround : round record with fault | _ | x
    · right
      rw [afterFailure_cons_error hround]
      exact ⟨by simp [isRead_error hround], fault, rfl⟩
    · rw [List.all_cons, isRead_ok hround, Bool.true_and, given_cons_skip hround,
        afterFailure_cons_ok hround]
      exact ih credentials
    · have hgoes : ¬ count - 1 = 0 := by omega
      rw [List.all_cons, isRead_ok hround, Bool.true_and, given_cons_some hround,
        afterFailure_cons_ok hround]
      simp only [if_neg hgoes]
      simpa using ih (credentials ++ [x])

variable (C lc codec) in
/-- The next page of a search. -/
def SearchForProofRequest.page (s : SearchForProofRequest) (count : ℕ) :
    Outcome (List RequestedCredential) :=
  (getRequestedCredentials C lc codec s (some count)).1

variable (C lc codec) in
/-- The search after its next page. -/
def SearchForProofRequest.turned (s : SearchForProofRequest) (count : ℕ) : SearchForProofRequest :=
  (getRequestedCredentials C lc codec s (some count)).2

def onPage (page : Outcome (List RequestedCredential)) : List RequestedCredential :=
  page.toOption.getD []

variable (s : SearchForProofRequest)

/-- What one fetch does, by its count. -/
theorem page_cases (count : ℕ) :
    (count = 0 ∧ s.page C lc codec count = .ok [] ∧
      (s.turned C lc codec count).matching C lc codec = s.matching C lc codec) ∨
    (count = 1 ∧ ((∃ x, s.page C lc codec count = .ok [x] ∧
        s.matching C lc codec = x :: (s.turned C lc codec count).matching C lc codec) ∨
      (s.page C lc codec count = .ok [] ∧ s.matching C lc codec = [] ∧
        (s.turned C lc codec count).matching C lc codec = []) ∨
      ∃ fault, s.page C lc codec count = .error fault ∧
        s.matching C lc codec = (s.turned C lc codec count).matching C lc codec)) ∨
    (1 < count ∧ ((s.search.records.all (isRead (requestedCredential C lc codec s)) = true ∧
        s.page C lc codec count = .ok (s.matching C lc codec) ∧
        (s.turned C lc codec count).matching C lc codec = []) ∨
      (s.search.records.all (isRead (requestedCredential C lc codec s)) = false ∧ ∃ fault,
        s.page C lc codec count = .error fault ∧ s.matching C lc codec =
          givenBefore (requestedCredential C lc codec s) s.search.records ++
            (s.turned C lc codec count).matching C lc codec))) := by
  have hturned : ∀ {result records}, count ≠ 0 →
      requestedCredentialsLoop (requestedCredential C lc codec s) (some count)
      [] s.search.records = (result, records) →
      s.page C lc codec count = result ∧
        (s.turned C lc codec count).matching C lc codec = given
        (requestedCredential C lc codec s) records := by
    intro result records hne hloop
    have hcount : ¬ some count = some 0 := by simpa using hne
    unfold SearchForProofRequest.page SearchForProofRequest.turned getRequestedCredentials
    rw [if_neg hcount, hloop]
    exact ⟨rfl, rfl⟩
  rcases Nat.lt_trichotomy count 1 with hzero | rfl | hmore
  · obtain rfl : count = 0 := by omega
    exact .inl ⟨rfl, rfl, rfl⟩
  · right
    left
    refine ⟨rfl, ?_⟩
    rcases loop_one [] s.search.records
      with ⟨x, rest, hloop, hgiven⟩ | ⟨hloop, hgiven⟩ | ⟨fault, rest, hloop, hgiven⟩
    · obtain ⟨hpage, hleft⟩ := hturned one_ne_zero hloop
      exact .inl ⟨x, hpage, by rw [hleft]; exact hgiven⟩
    · obtain ⟨hpage, hleft⟩ := hturned one_ne_zero hloop
      exact .inr (.inl ⟨hpage, hgiven, hleft⟩)
    · obtain ⟨hpage, hleft⟩ := hturned one_ne_zero hloop
      exact .inr (.inr ⟨fault, hpage, by rw [hleft]; exact hgiven⟩)
  · right
    right
    refine ⟨hmore, ?_⟩
    rcases loop_more hmore [] s.search.records with ⟨hall, hloop⟩ | ⟨hfails, fault, hloop⟩
    · obtain ⟨hpage, hleft⟩ := hturned (by omega) hloop
      exact .inl ⟨hall, hpage, hleft⟩
    · obtain ⟨hpage, hleft⟩ := hturned (by omega) hloop
      refine .inr ⟨hfails, fault, hpage, ?_⟩
      rw [hleft]
      exact given_eq_append _

/-- Nothing is handed out that is not there, and nothing twice. -/
theorem onPage_sublist (count : ℕ) :
    (onPage (s.page C lc codec count) ++ (s.turned C lc codec count).matching C lc codec).Sublist
      (s.matching C lc codec) := by
  rcases page_cases s count
    with ⟨-, hpage, hleft⟩ | ⟨-, ⟨x, hpage, hleft⟩ | ⟨hpage, -, hleft⟩ | ⟨fault, hpage, hleft⟩⟩ |
    ⟨-, ⟨-, hpage, hleft⟩ | ⟨-, fault, hpage, hleft⟩⟩
  · rw [hpage, hleft]
    exact List.Sublist.refl _
  · rw [hpage, hleft]
    exact List.Sublist.refl _
  · rw [hpage, hleft]
    exact List.nil_sublist _
  · rw [hpage, hleft]
    exact List.Sublist.refl _
  · rw [hpage, hleft]
    exact (List.append_nil _).symm ▸ List.Sublist.refl _
  · rw [hpage, hleft]
    exact List.sublist_append_right _ _

theorem pageOf_ok_iff {count : ℕ} {credentials left : List RequestedCredential} :
    PageOf count (.ok credentials) left ↔
      credentials.length ≤ count ∧ (credentials.length < count → left = []) := by
  constructor
  · intro h
    exact ⟨h.length credentials rfl, h.fewer credentials rfl⟩
  · rintro ⟨hlength, hfewer⟩
    refine ⟨fun credentials' h => ?_, fun credentials' h => ?_⟩
    · exact Except.ok.inj h ▸ hlength
    · exact Except.ok.inj h ▸ hfewer

theorem pageOf_error (count : ℕ) (fault : Fault) (left : List RequestedCredential) :
    PageOf count (.error fault) left where
  length _ h := by cases h
  fewer _ h := by cases h

/-- When a fetch is right. -/
theorem page_exact_iff (count : ℕ) :
    (PageOf count (s.page C lc codec count) ((s.turned C lc codec count).matching C lc codec) ∧
      onPage (s.page C lc codec count) ++
      (s.turned C lc codec count).matching C lc codec = s.matching C lc codec) ↔
    s.Fits C lc codec count := by
  unfold SearchForProofRequest.Fits
  rcases page_cases s count with ⟨rfl, hpage, hleft⟩ | ⟨rfl, hone⟩ |
    ⟨hmore, ⟨hall, hpage, hleft⟩ | ⟨hfails, fault, hpage, hleft⟩⟩
  · rw [hpage, hleft, pageOf_ok_iff]
    simp [onPage, Except.toOption]
  · refine iff_of_true ?_ (.inl le_rfl)
    rcases hone with ⟨x, hpage, hleft⟩ | ⟨hpage, hmatching, hleft⟩ | ⟨fault, hpage, hleft⟩
    · rw [hpage, hleft, pageOf_ok_iff]
      simp [onPage, Except.toOption]
    · rw [hpage, hleft, hmatching, pageOf_ok_iff]
      simp [onPage, Except.toOption]
    · rw [hpage, hleft]
      exact ⟨pageOf_error _ _ _, rfl⟩
  · have hnot : ¬ count ≤ 1 := by omega
    rw [hpage, hleft, pageOf_ok_iff, if_pos hall, givenBefore_eq_given hall]
    simp [onPage, Except.toOption, hnot, SearchForProofRequest.matching]
  · have hnot : ¬ count ≤ 1 := by omega
    rw [hpage, hleft, hfails]
    simp [onPage, Except.toOption, hnot, pageOf_error]

end Page

section Run
variable {Signature Nonce : Type} (C : Cipher) (S : Sqlite) (build : Build) (lc : Lowercase)
  (codec : CredentialCodec Signature) (handle : SearchHandle) (referent : String)

def ProofRequestSearches.searchFor (s : ProofRequestSearches) : Option SearchForProofRequest :=
  (s.lookup handle).bind (·.lookup referent)

/-- The credentials that the search still has. -/
def ProofRequestSearches.left (s : ProofRequestSearches) : List RequestedCredential :=
  match s.searchFor handle referent with
  | some search => search.matching C lc codec
  | none => []

/-- What a command reads from the search. -/
def ProofRequestSearches.readBy (s : ProofRequestSearches) :
    SearchCommand Nonce → List RequestedCredential
  | .fetch searchHandle itemReferent count =>
    if searchHandle = handle ∧ itemReferent = referent then
      onPage (fetchCredentialForProofRequest C lc codec searchHandle itemReferent count s).1
    else []
  | _ => []

/-- All the pages of the search that these commands read, one after the other. -/
def ProofRequestSearches.pages (s : ProofRequestSearches) :
    List (SearchCommand Nonce) → List RequestedCredential
  | [] => []
  | command :: commands =>
    s.readBy C lc codec handle referent command ++
      pages (s.after C S build lc codec command) commands

/-- The command leaves the search open: it is not closed, nor is its handle given away. -/
def SearchCommand.Spares : SearchCommand Nonce → Prop
  | .search _ _ _ _ searchHandle => searchHandle ≠ handle
  | .fetch _ _ _ => True
  | .close searchHandle => searchHandle ≠ handle

/-- A fetch from the search answers with a page of its count. -/
def Bounded (s : ProofRequestSearches) (command : SearchCommand Nonce) : Prop :=
  ∀ count, command = .fetch handle referent count →
    PageOf count (fetchCredentialForProofRequest C lc codec handle referent count s).1
      ((s.after C S build lc codec command).left C lc codec handle referent)

/-- A fetch finds the search in a state that fits its count. -/
def FitsCount (s : ProofRequestSearches) (command : SearchCommand Nonce) : Prop :=
  ∀ count search, command = .fetch handle referent count →
    s.searchFor handle referent = some search →
    search.Fits C lc codec count

variable {C S build lc codec handle referent} {s : ProofRequestSearches}
    {search : SearchForProofRequest}
  {command : SearchCommand Nonce} {commands : List (SearchCommand Nonce)}

theorem left_eq (hs : s.searchFor handle referent = some search) :
    s.left C lc codec handle referent = search.matching C lc codec := by
  rw [ProofRequestSearches.left, hs]

theorem fetch_eq (hs : s.searchFor handle referent = some search) (count : ℕ) :
    (fetchCredentialForProofRequest C lc codec handle referent count s).1 =
      search.page C lc codec count ∧
      (fetchCredentialForProofRequest C lc codec handle referent count s).2.searchFor
        handle referent = some (search.turned C lc codec count) := by
  obtain ⟨searches, hsearches, hsearch⟩ := Option.bind_eq_some_iff.mp hs
  unfold fetchCredentialForProofRequest
  rw [hsearches]
  dsimp only
  rw [hsearch]
  refine ⟨rfl, ?_⟩
  dsimp only
  rw [ProofRequestSearches.searchFor, AList.lookup_insert, Option.bind_some, AList.lookup_insert]
  rfl

theorem searchFor_insert (searches : Table String SearchForProofRequest) {handle' : SearchHandle}
    (hne : handle' ≠ handle) :
    ProofRequestSearches.searchFor handle referent
      (s.insert handle' searches) = s.searchFor handle referent := by
  rw [ProofRequestSearches.searchFor, AList.lookup_insert_ne hne.symm]
  rfl

/-- Another command leaves the search as it is. -/
theorem searchFor_after (hs : s.searchFor handle referent = some search)
    (hspares : command.Spares handle) (hother : ∀ count, command ≠ .fetch handle referent count) :
    (s.after C S build lc codec command).searchFor handle referent = some search := by
  cases command with
  | search wallet version proofReq extraQuery searchHandle =>
    unfold ProofRequestSearches.after searchCredentialsForProofReq
    dsimp only
    split
    · exact hs
    · exact (searchFor_insert _ hspares).trans hs
  | fetch searchHandle itemReferent count =>
    unfold ProofRequestSearches.after fetchCredentialForProofRequest
    dsimp only
    split
    · exact hs
    · rename_i searches hsearches
      split
      · exact hs
      · dsimp only
        by_cases hhandle : searchHandle = handle
        · subst hhandle
          have hreferent : referent ≠ itemReferent := fun heq => hother count (by rw [heq])
          rw [ProofRequestSearches.searchFor, AList.lookup_insert, Option.bind_some,
            AList.lookup_insert_ne hreferent,
            ← hs, ProofRequestSearches.searchFor, hsearches, Option.bind_some]
        · exact (searchFor_insert _ hhandle).trans hs
  | close searchHandle =>
    unfold ProofRequestSearches.after closeCredentialsSearchForProofReq
    dsimp only
    split
    · rw [ProofRequestSearches.searchFor, AList.lookup_erase_ne (Ne.symm hspares)]
      exact hs
    · exact hs

/-- What a command does to a search that it spares. -/
structure Reads (C : Cipher) (S : Sqlite) (build : Build) (lc : Lowercase)
    (codec : CredentialCodec Signature)
    (handle : SearchHandle) (referent : String) (s : ProofRequestSearches)
    (command : SearchCommand Nonce) : Prop where
  open_ : ∃ search, (s.after C S build lc codec command).searchFor handle referent = some search
  /-- What is read was there, and is not read again. -/
  sublist : (s.readBy C lc codec handle referent command ++
    (s.after C S build lc codec command).left C lc codec handle referent).Sublist
      (s.left C lc codec handle referent)
  /-- When the answer is right and nothing is lost. -/
  exact_iff : (Bounded C S build lc codec handle referent s command ∧
      s.readBy C lc codec handle referent command ++
      (s.after C S build lc codec command).left C lc codec handle referent =
        s.left C lc codec handle referent) ↔ FitsCount C lc codec handle referent s command

theorem reads_fetch (hs : s.searchFor handle referent = some search) (count : ℕ) :
    Reads C S build lc codec handle referent s
      (.fetch handle referent count : SearchCommand Nonce) := by
  obtain ⟨hpage, hafter⟩ := @fetch_eq _ C lc codec handle referent s search hs count
  have hread : s.readBy C lc codec handle referent
      (.fetch handle referent count : SearchCommand Nonce) =
      onPage (search.page C lc codec count) := by
    rw [ProofRequestSearches.readBy, if_pos ⟨rfl, rfl⟩, hpage]
  have hleft : (s.after C S build lc codec
      (.fetch handle referent count : SearchCommand Nonce)).left C lc codec
      handle referent = (search.turned C lc codec count).matching C lc codec := left_eq hafter
  have hbounded : Bounded C S build lc codec handle referent s
      (.fetch handle referent count : SearchCommand Nonce) ↔
      PageOf count (search.page C lc codec count)
      ((search.turned C lc codec count).matching C lc codec) := by
    rw [← hpage, ← hleft]
    constructor
    · exact fun h => h count rfl
    · rintro h count' ⟨⟩
      exact h
  have hfits : FitsCount C lc codec handle referent s
      (.fetch handle referent count : SearchCommand Nonce) ↔
      search.Fits C lc codec count := by
    constructor
    · exact fun h => h count search rfl hs
    · rintro h count' search' ⟨⟩ hs'
      exact Option.some.inj (hs.symm.trans hs') ▸ h
  refine ⟨⟨_, hafter⟩, ?_, ?_⟩
  · rw [hread, hleft, left_eq hs]
    exact onPage_sublist search count
  · rw [hbounded, hread, hleft, left_eq hs, hfits]
    exact page_exact_iff search count

theorem reads_other (hs : s.searchFor handle referent = some search)
    (hspares : command.Spares handle) (hother : ∀ count, command ≠ .fetch handle referent count) :
    Reads C S build lc codec handle referent s command := by
  have hafter : (s.after C S build lc codec command).searchFor handle referent = some search :=
    searchFor_after hs hspares hother
  have hread : s.readBy C lc codec handle referent command = [] := by
    cases command with
    | search wallet version proofReq extraQuery searchHandle => rfl
    | fetch searchHandle itemReferent count =>
      rw [ProofRequestSearches.readBy, if_neg]
      rintro ⟨rfl, rfl⟩
      exact hother count rfl
    | close searchHandle => rfl
  refine ⟨⟨search, hafter⟩, ?_, iff_of_true ⟨?_, ?_⟩ ?_⟩
  · rw [hread, left_eq hs, left_eq hafter]
    exact List.Sublist.refl _
  · exact fun count hfetch => absurd hfetch (hother count)
  · rw [hread, left_eq hs, left_eq hafter]
    rfl
  · exact fun count search' hfetch => absurd hfetch (hother count)

theorem reads_of_spares (hs : s.searchFor handle referent = some search)
    (hspares : command.Spares handle) :
    Reads C S build lc codec handle referent s command := by
  by_cases hfetch : ∃ count, command = .fetch handle referent count
  · obtain ⟨count, rfl⟩ := hfetch
    exact reads_fetch hs count
  · exact reads_other hs hspares fun count heq => hfetch ⟨count, heq⟩

variable (C S build lc codec) in
/-- The searches after these commands. -/
abbrev ProofRequestSearches.run (s : ProofRequestSearches) (commands : List (SearchCommand Nonce)) :
    ProofRequestSearches := commands.foldl (fun s command => s.after C S build lc codec command) s

theorem run_cons : s.run C S build lc codec (command :: commands) =
    (s.after C S build lc codec command).run C S build lc codec commands := rfl

theorem pages_sublist (hs : s.searchFor handle referent = some search)
    (hspares : ∀ c ∈ commands, c.Spares handle) :
    (s.pages C S build lc codec handle referent commands ++
      (s.run C S build lc codec commands).left C lc codec handle referent).Sublist
        (s.left C lc codec handle referent) := by
  induction commands generalizing s search with
  | nil => exact List.Sublist.refl _
  | cons command commands ih =>
    have hreads : Reads C S build lc codec handle referent s command :=
      reads_of_spares hs (hspares command (by simp))
    obtain ⟨search', hs'⟩ := hreads.open_
    have hrest := ih hs' fun c hc => hspares c (by simp [hc])
    rw [ProofRequestSearches.pages, List.append_assoc]
    exact (hrest.append_left _).trans hreads.sublist

/-- Along a run: every answer is right and nothing is lost exactly when every fetch fits. -/
theorem pages_complete_iff (hs : s.searchFor handle referent = some search)
    (hspares : ∀ c ∈ commands, c.Spares handle) :
    ((∀ pre c, pre ++ [c] <+: commands →
        Bounded C S build lc codec handle referent (s.run C S build lc codec pre) c) ∧
      s.pages C S build lc codec handle referent commands ++
        (s.run C S build lc codec commands).left C lc codec handle referent =
          s.left C lc codec handle referent) ↔
    ∀ pre c, pre ++ [c] <+: commands →
      FitsCount C lc codec handle referent (s.run C S build lc codec pre) c := by
  induction commands generalizing s search with
  | nil => exact iff_of_true ⟨forall_steps_nil, rfl⟩ forall_steps_nil
  | cons command commands ih =>
    have hreads : Reads C S build lc codec handle referent s command :=
      reads_of_spares hs (hspares command (by simp))
    have hspares' : ∀ c ∈ commands, c.Spares handle := fun c hc => hspares c (by simp [hc])
    obtain ⟨search', hs'⟩ := hreads.open_
    have hrest := @pages_sublist _ _ C S build lc codec handle referent _ _ commands hs' hspares'
    rw [forall_steps_cons_iff, forall_steps_cons_iff, ← hreads.exact_iff, ← ih hs' hspares',
      ProofRequestSearches.pages, List.append_assoc]
    constructor
    · rintro ⟨⟨hbounded, hbounds⟩, hall⟩
      -- what a command lost could not be read later
      have hlength := hreads.sublist.length_le
      rw [← hall, List.length_append, List.length_append] at hlength
      have hlater := hrest.eq_of_length_le (by simpa using hlength)
      exact ⟨⟨hbounded, by rw [← hall, ← hlater, run_cons]⟩, hbounds, hlater⟩
    · rintro ⟨⟨hbounded, hfirst⟩, hbounds, hall⟩
      exact ⟨⟨hbounded, hbounds⟩, by rw [run_cons, hall, hfirst]⟩

end Run

section Opened
variable {Signature Nonce : Type} {C : Cipher} {S : Sqlite} {build : Build} {lc : Lowercase}
  {codec : CredentialCodec Signature} {wallet : WalletAccess} {version : ProofRequestsVersion}
  {proofReq : ProofRequestPayload Nonce} {extraQuery : Option (Table String Query)}
  {handle : SearchHandle} {referent : String} {search : SearchForProofRequest}

/-- What is searched for under a referent. -/
def ProofRequestPayload.requestedSearch (proofReq : ProofRequestPayload Nonce) (referent : String) :
    Option RequestedSearch :=
  ((proofReq.requestedPredicates.lookup referent).map (RequestedSearch.ofPredicate referent)).or
    ((proofReq.requestedAttributes.lookup referent).map (RequestedSearch.ofAttribute referent))

theorem started {searches : Table String SearchForProofRequest}
    (hstart : startSearches C S build lc wallet version proofReq extraQuery = .ok searches)
    (hsearch : searches.lookup referent = some search) :
    ∃ item, proofReq.requestedSearch referent = some item ∧
      item.start C S build lc wallet version proofReq.nonRevoked extraQuery = .ok search := by
  unfold startSearches at hstart
  obtain ⟨ofAttributes, hattributes, hpredicates⟩ := except_bind_eq_ok.mp hstart
  unfold ProofRequestPayload.requestedSearch
  cases hpredicate : proofReq.requestedPredicates.lookup referent with
  | some info =>
    have hlookup :
        (proofReq.requestedPredicates.mapValues RequestedSearch.ofPredicate).lookup referent =
        some (.ofPredicate referent info) := by rw [Table.lookup_mapValues, hpredicate]; rfl
    obtain ⟨search', hitem, hfound⟩ := Table.lookup_insertAllM hpredicates hlookup
    obtain rfl : search' = search := Option.some.inj (hfound.symm.trans hsearch)
    exact ⟨_, rfl, hitem⟩
  | none =>
    have hnone : (proofReq.requestedPredicates.mapValues RequestedSearch.ofPredicate).lookup
        referent = none := by
      rw [Table.lookup_mapValues, hpredicate]; rfl
    rw [Table.lookup_insertAllM_of_none hpredicates hnone] at hsearch
    cases hattribute : proofReq.requestedAttributes.lookup referent with
    | some info =>
      have hlookup :
          (proofReq.requestedAttributes.mapValues RequestedSearch.ofAttribute).lookup referent =
          some (.ofAttribute referent info) := by rw [Table.lookup_mapValues, hattribute]; rfl
      obtain ⟨search', hitem, hfound⟩ := Table.lookup_insertAllM hattributes hlookup
      obtain rfl : search' = search := Option.some.inj (hfound.symm.trans hsearch)
      exact ⟨_, rfl, hitem⟩
    | none =>
      have hlookup : (proofReq.requestedAttributes.mapValues RequestedSearch.ofAttribute).lookup
          referent = none := by
        rw [Table.lookup_mapValues, hattribute]; rfl
      rw [Table.lookup_insertAllM_of_none hattributes hlookup, AList.lookup_empty] at hsearch
      cases hsearch

theorem opened {s₀ s : ProofRequestSearches}
    (hopen : searchCredentialsForProofReq C S build lc wallet version proofReq extraQuery handle
      s₀ = (.ok handle, s))
    (hs : s.searchFor handle referent = some search) :
    ∃ item, proofReq.requestedSearch referent = some item ∧
      item.start C S build lc wallet version proofReq.nonRevoked extraQuery = .ok search := by
  unfold searchCredentialsForProofReq at hopen
  split at hopen
  · cases hopen
  · rename_i searches hstart
    obtain ⟨-, rfl⟩ := Prod.mk.inj hopen
    rw [ProofRequestSearches.searchFor, AList.lookup_insert, Option.bind_some] at hs
    exact started hstart hs

/-- When the pages of a search for a proof request are right: each of its count, short only at the
end, and together all the credentials that the wallet has for the query and that satisfy the
predicate. Every fetch has to find its count fitting. -/
theorem paged_fetch_exact_iff {s₀ s : ProofRequestSearches}
    (hopen : searchCredentialsForProofReq C S build lc wallet version proofReq extraQuery handle
      s₀ = (.ok handle, s))
    (hs : s.searchFor handle referent = some search) {commands : List (SearchCommand Nonce)}
    (hspares : ∀ c ∈ commands, c.Spares handle) :
    (∃ item, proofReq.requestedSearch referent = some item ∧
      item.start C S build lc wallet version proofReq.nonRevoked extraQuery = .ok search) ∧
    (((∀ pre c, pre ++ [c] <+: commands →
        Bounded C S build lc codec handle referent (s.run C S build lc codec pre) c) ∧
      s.pages C S build lc codec handle referent commands ++
        (s.run C S build lc codec commands).left C lc codec handle referent =
          search.matching C lc codec) ↔
    ∀ pre c, pre ++ [c] <+: commands →
      FitsCount C lc codec handle referent (s.run C S build lc codec pre) c) := by
  refine ⟨opened hopen hs, ?_⟩
  rw [← left_eq hs]
  exact pages_complete_iff hs hspares

end Opened

section Overfull
open Wallet (plainCipher zeroKeys maxSqlite zeroRandom emptyDb)

/-- A name that someone signed. -/
def nameCredential : Credential Unit :=
  ⟨⟨"NcYxiDXkpYi6ov5FcYDi1e:2:gvt:1.0"⟩, ⟨"NcYxiDXkpYi6ov5FcYDi1e:3:CL:1:tag"⟩, none,
    AList.singleton "name" ⟨"Alex", "1139481716457488690172217916278103335"⟩, ()⟩

/-- Every text stands for the same credential. -/
def nameCodec : CredentialCodec Unit := ⟨fun _ => some nameCredential, fun _ => none⟩

def threeCredentials : WalletAccess where
  keys := zeroKeys
  db := ["cred1", "cred2", "cred3"].foldl
    (fun db name => (Wallet.add plainCipher zeroKeys maxSqlite "Indy::Credential"
    name "{}" (AList.singleton "attr::name::marker" "1") zeroRandom db).2) emptyDb

def nameSearchRequest : ProofRequestPayload Unit :=
  ⟨(), AList.singleton "attr1_referent" ⟨some "name", none, none, none⟩, ∅, none⟩

def openedSearches : ProofRequestSearches :=
  (searchCredentialsForProofReq plainCipher maxSqlite .debug asciiLowercase threeCredentials .v2
    nameSearchRequest none 1 ∅).2

theorem opened_searches :
    searchCredentialsForProofReq plainCipher maxSqlite .debug asciiLowercase threeCredentials .v2
    nameSearchRequest none 1 ∅ = (.ok 1, openedSearches) := by
  have hok :
      (searchCredentialsForProofReq plainCipher maxSqlite .debug asciiLowercase threeCredentials .v2
    nameSearchRequest none 1 ∅).1 = .ok 1 := by decide
  exact Prod.ext hok rfl

theorem paged_fetch_exact_iff_ones :
    ∃ search, openedSearches.searchFor 1 "attr1_referent" = some search ∧
    (∃ item, nameSearchRequest.requestedSearch "attr1_referent" = some item ∧
      item.start plainCipher maxSqlite .debug asciiLowercase threeCredentials .v2 none none =
        .ok search) ∧
    (((∀ pre c, pre ++
      [c] <+: List.replicate 4 (SearchCommand.fetch 1 "attr1_referent" 1 : SearchCommand Unit) →
        Bounded plainCipher maxSqlite .debug asciiLowercase nameCodec 1 "attr1_referent"
          (openedSearches.run plainCipher maxSqlite .debug asciiLowercase nameCodec pre) c) ∧
      openedSearches.pages plainCipher maxSqlite .debug asciiLowercase nameCodec 1 "attr1_referent"
          (List.replicate 4 (SearchCommand.fetch 1 "attr1_referent" 1 : SearchCommand Unit)) ++
        (openedSearches.run plainCipher maxSqlite .debug asciiLowercase nameCodec
          (List.replicate 4 (SearchCommand.fetch 1 "attr1_referent" 1 : SearchCommand Unit))).left
            plainCipher asciiLowercase nameCodec 1 "attr1_referent" =
              search.matching plainCipher asciiLowercase nameCodec) ↔
    ∀ pre c, pre ++
      [c] <+: List.replicate 4 (SearchCommand.fetch 1 "attr1_referent" 1 : SearchCommand Unit) →
      FitsCount plainCipher asciiLowercase nameCodec 1 "attr1_referent"
        (openedSearches.run plainCipher maxSqlite .debug asciiLowercase nameCodec pre) c) := by
  have hsome : (openedSearches.searchFor 1 "attr1_referent").isSome = true := by decide
  obtain ⟨search, hsearch⟩ := Option.isSome_iff_exists.mp hsome
  refine ⟨search, hsearch, paged_fetch_exact_iff opened_searches hsearch ?_⟩
  intro c hc
  obtain rfl := List.eq_of_mem_replicate hc
  trivial

/-- A page of at most two has three credentials. -/
theorem overfull_page :
    searchCredentialsForProofReq plainCipher maxSqlite .debug asciiLowercase threeCredentials .v2
      nameSearchRequest none 1 ∅ = (.ok 1, openedSearches) ∧
    ∃ page, (fetchCredentialForProofRequest plainCipher asciiLowercase nameCodec 1 "attr1_referent"
      2 openedSearches).1 = .ok page ∧ page.length = 3 := by
  have hlength :
      (fetchCredentialForProofRequest plainCipher asciiLowercase nameCodec 1 "attr1_referent" 2
      openedSearches).1.map List.length = .ok 3 := by decide
  refine ⟨opened_searches, ?_⟩
  cases hpage :
    (fetchCredentialForProofRequest plainCipher asciiLowercase nameCodec 1 "attr1_referent" 2
      openedSearches).1 with
  | error fault =>
    rw [hpage] at hlength
    cases hlength
  | ok page =>
    rw [hpage] at hlength
    exact ⟨page, rfl, Except.ok.inj hlength⟩

end Overfull

end SimpleAsset.Indy.Anoncreds
