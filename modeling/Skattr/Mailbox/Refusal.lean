import Skattr.Mailbox.Caps

/-!
# When a deposit is refused for space

Eviction deletes rows whose `expires_at` lies before the present second and reclaims as many bytes
as it can, so the two byte caps refuse a deposit exactly when the rows that eviction cannot touch
leave no room (`fitRecipient_cases`, `fitGlobal_cases`). A fetch, however, already leaves out the
rows that expire in the present second, and the recipient-count cap is checked without any
eviction for the other recipients. `refused_for_live_mail_iff` says when these differences show.
-/

namespace Skattr.Mailbox

open Lib

namespace Store

/-! ### What eviction deletes -/

def evictedRows (targetBytes : Nat) :
    Nat → List (DepositId × DepositRow) → List (DepositId × DepositRow)
  | _, [] => []
  | freed, row :: candidates =>
    row :: if freed + row.2.ciphertext.length ≥ targetBytes then []
      else evictedRows targetBytes (freed + row.2.ciphertext.length) candidates

theorem evictLoop_rows (target freed : Nat) (candidates : List (DepositId × DepositRow))
    (store : Store) :
    (evictLoop target freed candidates store).rows =
      store.rows.filter fun row => row.1 ∉ (evictedRows target freed candidates).map Prod.fst := by
  induction candidates generalizing freed store with
  | nil => simp [evictLoop, evictedRows]
  | cons candidate candidates ih =>
    have hone : (Table.delete store candidate.1).rows =
        store.rows.filter fun row => row.1 ≠ candidate.1 := by
      show store.rows.filter _ = _
      refine List.filter_congr fun row _ => ?_
      simp
    simp only [evictLoop, evictedRows]
    split
    · rw [hone]
      refine List.filter_congr fun row _ => ?_
      simp
    · rw [ih, hone, List.filter_filter]
      refine List.filter_congr fun row _ => ?_
      by_cases hkey : row.1 = candidate.1 <;> simp [hkey]

theorem evictedRows_initial (target freed : Nat) (candidates : List (DepositId × DepositRow)) :
    (evictedRows target freed candidates).IsPrefix candidates := by
  induction candidates generalizing freed with
  | nil => exact List.nil_prefix
  | cons candidate candidates ih =>
    simp only [evictedRows]
    rw [List.prefix_cons_inj]
    split
    · exact List.nil_prefix
    · exact ih _

theorem evictedRows_cases (target freed : Nat) (candidates : List (DepositId × DepositRow)) :
    evictedRows target freed candidates = candidates ∨
      target ≤ freed + bytesOf (evictedRows target freed candidates) := by
  induction candidates generalizing freed with
  | nil => exact .inl rfl
  | cons candidate candidates ih =>
    simp only [evictedRows]
    split
    · next henough =>
      right
      simp only [bytesOf, List.map_cons, List.map_nil, List.sum_cons, List.sum_nil]
      omega
    · rcases ih (freed + candidate.2.ciphertext.length) with hall | hfreed
      · left
        rw [hall]
      · right
        simp only [bytesOf, List.map_cons, List.sum_cons] at hfreed ⊢
        omega

variable {row : DepositId × DepositRow} {store first : Store} {recipient : RecipientHash}
  {rows : List (DepositId × DepositRow)} {now : Int}

theorem length_le_bytesOf (h : row ∈ rows) : row.2.ciphertext.length ≤ bytesOf rows :=
  List.single_le_sum (fun _ _ => Nat.zero_le _) _ (List.mem_map_of_mem h)

theorem evictedRows_eq_self_iff {target freed : Nat} {candidates : List (DepositId × DepositRow)}
    (hfreed : freed < target) :
    evictedRows target freed candidates = candidates ↔
      ∀ last ∈ candidates.getLast?,
        freed + bytesOf candidates < target + last.2.ciphertext.length := by
  induction candidates generalizing freed with
  | nil => simp [evictedRows]
  | cons candidate candidates ih =>
    simp only [evictedRows, List.cons.injEq, true_and]
    cases candidates with
    | nil => simp [evictedRows, bytesOf, hfreed]
    | cons second rest =>
      have hbytes : bytesOf (candidate :: second :: rest) =
          candidate.2.ciphertext.length + bytesOf (second :: rest) := by
        simp [bytesOf]
      rw [List.getLast?_cons_cons]
      split
      · next henough =>
        constructor
        · intro hnil
          cases hnil
        · intro hlast
          have hmem := List.getLast_mem (List.cons_ne_nil second rest)
          have hle := length_le_bytesOf hmem
          have := hlast _ (List.getLast?_eq_some_getLast (List.cons_ne_nil second rest))
          omega
      · next hmore =>
        rw [ih (by omega)]
        refine forall₂_congr fun last _ => ?_
        omega

theorem bytesOf_perm {other : List (DepositId × DepositRow)} (h : rows.Perm other) :
    bytesOf rows = bytesOf other :=
  (h.map _).sum_eq

theorem bytesOf_append (rows other : List (DepositId × DepositRow)) :
    bytesOf (rows ++ other) = bytesOf rows + bytesOf other := by
  simp [bytesOf]

theorem bytesOf_filter_add (p : DepositId × DepositRow → Bool)
    (rows : List (DepositId × DepositRow)) :
    bytesOf (rows.filter p) + bytesOf (rows.filter fun row => !p row) = bytesOf rows := by
  rw [← bytesOf_append]
  exact bytesOf_perm (List.filter_append_perm p rows)

theorem bytesOf_filter_keys {gone : List (DepositId × DepositRow)}
    (hkeys : (rows.map Prod.fst).Nodup) (hgone : gone.Nodup) (hsub : ∀ row ∈ gone, row ∈ rows) :
    bytesOf (rows.filter fun row => row.1 ∉ gone.map Prod.fst) + bytesOf gone = bytesOf rows := by
  have hperm : (rows.filter fun row => !decide (row.1 ∉ gone.map Prod.fst)).Perm gone := by
    rw [List.perm_ext_iff_of_nodup ((List.Nodup.of_map _ hkeys).filter _) hgone]
    intro row
    rw [List.mem_filter]
    constructor
    · rintro ⟨hrow, hkey⟩
      have hkey : row.1 ∈ gone.map Prod.fst := by simpa using hkey
      obtain ⟨other, hother, hsame⟩ := List.mem_map.mp hkey
      have heq := List.inj_on_of_nodup_map hkeys (hsub other hother) hrow hsame
      rw [← heq]
      exact hother
    · intro hrow
      refine ⟨hsub row hrow, ?_⟩
      simpa using ⟨row.2, hrow⟩
  rw [← bytesOf_perm hperm]
  exact bytesOf_filter_add _ _

/-! ### Live and unexpired rows -/

def Fetchable (store : Store) (now : Int) (row : DepositId × DepositRow) : Prop :=
  ∃ deposit ∈ store.fetch row.2.recipientHash now, deposit.depositId = row.1

instance (store : Store) (now : Int) (row : DepositId × DepositRow) :
    Decidable (store.Fetchable now row) :=
  inferInstanceAs (Decidable (∃ deposit ∈ _, _))

def live (store : Store) (now : Int) : List (DepositId × DepositRow) :=
  store.rows.filter fun row => store.Fetchable now row

def unexpired (store : Store) (now : Int) : List (DepositId × DepositRow) :=
  store.rows.filter fun row => now ≤ row.2.expiresAt

def ofRecipient (recipient : RecipientHash) (rows : List (DepositId × DepositRow)) :
    List (DepositId × DepositRow) :=
  rows.filter fun row => row.2.recipientHash = recipient

theorem fetchable_iff (hrow : row ∈ store.rows) :
    store.Fetchable now row ↔ now < row.2.expiresAt := by
  constructor
  · rintro ⟨deposit, hdeposit, hid⟩
    rw [fetch, List.mem_map] at hdeposit
    obtain ⟨other, hother, rfl⟩ := hdeposit
    rw [mem_orderByDepositedAt, List.mem_filter, rowsFor, List.mem_filter] at hother
    have heq := Table.row_unique hother.1.1 hrow hid
    rw [← heq]
    simpa using hother.2
  · intro hlive
    exact ⟨_, mem_fetch hrow rfl hlive, rfl⟩

theorem live_eq (store : Store) (now : Int) :
    store.live now = store.rows.filter fun row => now < row.2.expiresAt := by
  refine List.filter_congr fun row hrow => ?_
  rw [decide_eq_decide]
  exact fetchable_iff hrow

theorem live_sublist_unexpired (store : Store) (now : Int) :
    (store.live now).Sublist (store.unexpired now) := by
  have hlive : store.live now = (store.unexpired now).filter fun row => now < row.2.expiresAt := by
    rw [live_eq, unexpired, List.filter_filter]
    refine List.filter_congr fun row _ => ?_
    by_cases h : now < row.2.expiresAt
    · simp [h, h.le]
    · simp [h]
  rw [hlive]
  exact List.filter_sublist

theorem ofRecipient_unexpired (store : Store) (recipient : RecipientHash) (now : Int) :
    ofRecipient recipient (store.unexpired now) =
      (store.rowsFor recipient).filter fun row => now ≤ row.2.expiresAt := by
  rw [ofRecipient, unexpired, rowsFor, List.filter_filter, List.filter_filter]
  exact List.filter_congr fun row _ => Bool.and_comm _ _

theorem Evicted.bytesOf_unexpired {next : Store} (h : Evicted store next now) :
    bytesOf (next.unexpired now) = bytesOf (store.unexpired now) := by
  refine bytesOf_perm ?_
  have hnodup (table : Store) : (table.unexpired now).Nodup :=
    (List.Nodup.of_map _ table.nodup).filter _
  rw [List.perm_ext_iff_of_nodup (hnodup next) (hnodup store)]
  intro row
  rw [unexpired, unexpired, List.mem_filter, List.mem_filter]
  constructor
  · rintro ⟨hrow, hlive⟩
    exact ⟨h.subset row hrow, hlive⟩
  · rintro ⟨hrow, hlive⟩
    exact ⟨h.live row hrow (by simpa using hlive), hlive⟩

/-! ### When a cap refuses -/

def candidates (now : Int) (rows : List (DepositId × DepositRow)) :
    List (DepositId × DepositRow) :=
  orderByDepositedAt (rows.filter fun row => row.2.expiresAt < now)

theorem mem_candidates : row ∈ candidates now rows ↔ row ∈ rows ∧ row.2.expiresAt < now := by
  rw [candidates, mem_orderByDepositedAt, List.mem_filter, decide_eq_true_eq]

theorem candidates_nodup (hkeys : (rows.map Prod.fst).Nodup) : (candidates now rows).Nodup :=
  (List.perm_insertionSort _ _).nodup_iff.mpr ((List.Nodup.of_map _ hkeys).filter _)

def remaining (target : Nat) (now : Int) (rows : List (DepositId × DepositRow)) :
    List (DepositId × DepositRow) :=
  rows.filter fun row => row.1 ∉ (evictedRows target 0 (candidates now rows)).map Prod.fst

section Remaining

variable {rows : List (DepositId × DepositRow)} {now : Int} {newLen cap : Nat}

theorem remaining_exceeds_iff (now : Int) (hkeys : (rows.map Prod.fst).Nodup)
    (hover : cap < bytesOf rows + newLen) :
    cap < bytesOf (remaining (bytesOf rows + newLen - cap) now rows) + newLen ↔
      cap < bytesOf (rows.filter fun row => now ≤ row.2.expiresAt) + newLen := by
  unfold remaining
  have hinitial := evictedRows_initial (bytesOf rows + newLen - cap) 0 (candidates now rows)
  have hstop := evictedRows_cases (bytesOf rows + newLen - cap) 0 (candidates now rows)
  generalize evictedRows (bytesOf rows + newLen - cap) 0 (candidates now rows) = gone
    at hinitial hstop
  have hleft := bytesOf_filter_keys hkeys ((candidates_nodup hkeys).sublist hinitial.sublist)
    fun row hrow => (mem_candidates.mp (hinitial.subset hrow)).1
  have hcandidates : bytesOf (candidates now rows) =
      bytesOf (rows.filter fun row => row.2.expiresAt < now) :=
    bytesOf_perm (List.perm_insertionSort _ _)
  have hsplit : bytesOf (rows.filter fun row => now ≤ row.2.expiresAt) +
      bytesOf (rows.filter fun row => row.2.expiresAt < now) = bytesOf rows := by
    rw [← bytesOf_filter_add (fun row => decide (now ≤ row.2.expiresAt)) rows]
    congr 2
    refine List.filter_congr fun row _ => ?_
    rw [← decide_not, decide_eq_decide, not_le]
  have hle := bytesOf_sublist hinitial.sublist
  rcases hstop with hall | hfreed
  · rw [hall] at hleft ⊢
    omega
  · omega

theorem candidates_of_all_expired (h : (rows.filter fun row => now ≤ row.2.expiresAt) = []) :
    candidates now rows = orderByDepositedAt rows := by
  have hall : (rows.filter fun row => row.2.expiresAt < now) = rows := by
    rw [List.filter_eq_self]
    intro row hrow
    have hexpired := List.filter_eq_nil_iff.mp h row hrow
    simpa using hexpired
  rw [candidates, hall]

/-- An eviction that has to make room leaves nothing exactly when all rows have expired and the
newest of them does not fit beside what is to come. -/
theorem remaining_eq_nil_iff (hkeys : (rows.map Prod.fst).Nodup)
    (hover : cap < bytesOf rows + newLen) :
    remaining (bytesOf rows + newLen - cap) now rows = [] ↔
      (rows.filter fun row => now ≤ row.2.expiresAt) = [] ∧
        ∀ newest ∈ (orderByDepositedAt rows).getLast?,
          cap < newest.2.ciphertext.length + newLen := by
  have hperm : (orderByDepositedAt rows).Perm rows := List.perm_insertionSort _ _
  have hbytes := bytesOf_perm hperm
  -- when all rows have expired, the loop gets to the newest one exactly when it does not fit
  have hreach (hnone : (rows.filter fun row => now ≤ row.2.expiresAt) = []) :
      evictedRows (bytesOf rows + newLen - cap) 0 (candidates now rows) = candidates now rows ↔
        ∀ newest ∈ (orderByDepositedAt rows).getLast?,
          cap < newest.2.ciphertext.length + newLen := by
    rw [evictedRows_eq_self_iff (by omega), candidates_of_all_expired hnone, hbytes]
    refine forall₂_congr fun newest _ => ?_
    omega
  have hinitial := evictedRows_initial (bytesOf rows + newLen - cap) 0 (candidates now rows)
  unfold remaining
  constructor
  · intro hnil
    have hgone : ∀ row ∈ rows,
        row ∈ evictedRows (bytesOf rows + newLen - cap) 0 (candidates now rows) := by
      intro row hrow
      have hkey : row.1 ∈ (evictedRows (bytesOf rows + newLen - cap) 0
          (candidates now rows)).map Prod.fst := by
        simpa using List.filter_eq_nil_iff.mp hnil row hrow
      obtain ⟨other, hother, hsame⟩ := List.mem_map.mp hkey
      have hin := (mem_candidates.mp (hinitial.subset hother)).1
      rw [← List.inj_on_of_nodup_map hkeys hin hrow hsame]
      exact hother
    have hnone : (rows.filter fun row => now ≤ row.2.expiresAt) = [] := by
      rw [List.filter_eq_nil_iff]
      intro row hrow
      have hexpired := (mem_candidates.mp (hinitial.subset (hgone row hrow))).2
      simpa using hexpired
    refine ⟨hnone, (hreach hnone).mp (hinitial.eq_of_length_le ?_)⟩
    have hcount : (candidates now rows).length = rows.length := by
      rw [candidates_of_all_expired hnone, hperm.length_eq]
    rw [hcount]
    exact ((List.Nodup.of_map _ hkeys).subperm hgone).length_le
  · rintro ⟨hnone, hnewest⟩
    rw [(hreach hnone).mpr hnewest, List.filter_eq_nil_iff, candidates_of_all_expired hnone]
    intro row hrow
    have hmem : row.1 ∈ (orderByDepositedAt rows).map Prod.fst :=
      List.mem_map_of_mem (hperm.mem_iff.mpr hrow)
    simpa using hmem

end Remaining

theorem rowsFor_keys_nodup (store : Store) (recipient : RecipientHash) :
    ((store.rowsFor recipient).map Prod.fst).Nodup :=
  store.nodup.sublist (List.filter_sublist.map Prod.fst)

theorem evictExpiredFor_rowsFor (store : Store) (recipient other : RecipientHash) (target : Nat)
    (now : Int) :
    (store.evictExpiredFor recipient target now).rowsFor other =
      (store.rowsFor other).filter fun row => row.1 ∉
        (evictedRows target 0 (candidates now (store.rowsFor recipient))).map Prod.fst := by
  show (evictLoop target 0 (candidates now (store.rowsFor recipient)) store).rows.filter _ =
    (store.rows.filter _).filter _
  rw [evictLoop_rows, List.filter_filter, List.filter_filter]
  exact List.filter_congr fun row _ => Bool.and_comm _ _

theorem evictExpiredFor_rowsFor_ne (store : Store) {other : RecipientHash} (hne : other ≠ recipient)
    (target : Nat) (now : Int) :
    (store.evictExpiredFor recipient target now).rowsFor other = store.rowsFor other := by
  rw [evictExpiredFor_rowsFor, List.filter_eq_self]
  intro row hrow
  rw [decide_eq_true_eq]
  intro hkey
  obtain ⟨gone, hgone, hsame⟩ := List.mem_map.mp hkey
  have hcandidate := (mem_candidates.mp ((evictedRows_initial _ _ _).subset hgone)).1
  rw [rowsFor, List.mem_filter] at hcandidate hrow
  have heq := Table.row_unique hcandidate.1 hrow.1 hsame
  subst heq
  exact hne (by simpa using (of_decide_eq_true hrow.2).symm.trans (of_decide_eq_true hcandidate.2))

/-- After room has been made for a deposit of this size, the recipient has no row left. That is so
when all its rows have expired and the newest of them does not fit beside the deposit. -/
def Emptied (store : Store) (recipient : RecipientHash) (newLen cap : Nat) (now : Int) : Prop :=
  ofRecipient recipient (store.unexpired now) = [] ∧
    ∀ newest ∈ (orderByDepositedAt (store.rowsFor recipient)).getLast?,
      cap < newest.2.ciphertext.length + newLen

theorem fitRecipient_cases (store : Store) (recipient : RecipientHash) (newLen cap : Nat)
    (now : Int) :
    (cap < bytesOf (ofRecipient recipient (store.unexpired now)) + newLen ∧
        store.fitRecipient recipient newLen cap now = .error (.policy .recipientFull)) ∨
      (bytesOf (ofRecipient recipient (store.unexpired now)) + newLen ≤ cap ∧
        ∃ first : Store, store.fitRecipient recipient newLen cap now = .ok first ∧
          (first.rowsFor recipient = [] ↔ Emptied store recipient newLen cap now) ∧
          ∀ other, other ≠ recipient → first.rowsFor other = store.rowsFor other) := by
  unfold Emptied
  rw [ofRecipient_unexpired]
  have hkeys := store.rowsFor_keys_nodup recipient
  simp only [fitRecipient]
  by_cases hover : bytesOf (store.rowsFor recipient) + newLen > cap
  · rw [if_pos hover]
    have hexceeds := remaining_exceeds_iff now hkeys hover
    have hrows : (store.evictExpiredFor recipient
        (bytesOf (store.rowsFor recipient) + newLen - cap) now).rowsFor recipient =
        remaining (bytesOf (store.rowsFor recipient) + newLen - cap) now
          (store.rowsFor recipient) := evictExpiredFor_rowsFor _ _ _ _ _
    rw [hrows]
    split
    · next hfull => exact .inl ⟨hexceeds.mp hfull, rfl⟩
    · next hroom =>
      refine .inr ⟨by omega, _, rfl, ?_, fun other hne => evictExpiredFor_rowsFor_ne _ hne _ _⟩
      rw [hrows]
      exact remaining_eq_nil_iff hkeys hover
  · rw [if_neg hover]
    have hle : bytesOf ((store.rowsFor recipient).filter fun row => now ≤ row.2.expiresAt) ≤
        bytesOf (store.rowsFor recipient) := bytesOf_sublist List.filter_sublist
    refine .inr ⟨by omega, store, rfl, ?_, fun other _ => rfl⟩
    constructor
    · intro hnil
      rw [hnil]
      exact ⟨rfl, fun newest hnewest => by cases hnewest⟩
    · rintro ⟨-, hnewest⟩
      -- a newest row would fit, since all rows of the recipient do
      by_contra hsome
      have hordered : orderByDepositedAt (store.rowsFor recipient) ≠ [] := by
        intro hnil
        exact hsome (List.perm_nil.mp (hnil ▸ (List.perm_insertionSort _ _).symm))
      have hlast := hnewest _ (List.getLast?_eq_some_getLast hordered)
      have hmem := mem_orderByDepositedAt.mp (List.getLast_mem hordered)
      have hfits := length_le_bytesOf hmem
      omega

theorem fitGlobal_cases (store : Store) (newLen cap : Nat) (now : Int) :
    (cap < bytesOf (store.unexpired now) + newLen ∧
        store.fitGlobal newLen cap now = .error (.policy .serverFull)) ∨
      (bytesOf (store.unexpired now) + newLen ≤ cap ∧
        ∃ second : Store, store.fitGlobal newLen cap now = .ok second) := by
  simp only [fitGlobal]
  by_cases hover : bytesOf store.rows + newLen > cap
  · rw [if_pos hover]
    have hexceeds := remaining_exceeds_iff now store.nodup hover
    have hrows : (store.evictExpiredGlobal (bytesOf store.rows + newLen - cap) now).rows =
        remaining (bytesOf store.rows + newLen - cap) now store.rows := evictLoop_rows _ _ _ _
    rw [hrows]
    split
    · next hfull => exact .inl ⟨hexceeds.mp hfull, rfl⟩
    · next hroom => exact .inr ⟨not_lt.mp fun hfull => hroom (hexceeds.mpr hfull), _, rfl⟩
  · rw [if_neg hover]
    have hle : bytesOf (store.unexpired now) ≤ bytesOf store.rows :=
      bytesOf_sublist List.filter_sublist
    exact .inr ⟨by omega, store, rfl⟩

/-! ### Refusals and live mail -/

def liveRecipients (store : Store) (now : Int) : Finset RecipientHash :=
  ((store.live now).map fun row => row.2.recipientHash).toFinset

/-- A refusal for space is due to live mail: with the live rows alone, the deposit would exceed
the cap that the refusal names. -/
structure RefusedForLiveMail (policy : Policy) (store : Store) (row : DepositRow) (now : Int)
    (result : Except MailboxError Outcome) : Prop where
  recipientFull : result = .error (.policy .recipientFull) →
    policy.recipientCapBytes <
      bytesOf (ofRecipient row.recipientHash (store.live now)) + row.ciphertext.length
  recipientLimit : result = .error (.policy .recipientLimit) →
    policy.maxRecipients < (Insert.insert row.recipientHash (store.liveRecipients now)).card
  serverFull : result = .error (.policy .serverFull) →
    policy.globalStorageCapBytes < bytesOf (store.live now) + row.ciphertext.length

def FitsRecipient (policy : Policy) (store : Store) (row : DepositRow) (now : Int) : Prop :=
  bytesOf (ofRecipient row.recipientHash (store.unexpired now)) + row.ciphertext.length ≤
    policy.recipientCapBytes

/-- The deposit is for a recipient without rows while the other recipients, with live rows or
without, already reach the limit. -/
def OverRecipientLimit (policy : Policy) (store : Store) (row : DepositRow) (now : Int) : Prop :=
  Emptied store row.recipientHash row.ciphertext.length policy.recipientCapBytes now ∧
    policy.maxRecipients ≤ (store.recipients.erase row.recipientHash).card

/-- Mail that is no longer live does not tip a cap. Of the two byte caps, rows that expire in this
very second do not make the difference between room and none; and when the recipient limit is
reached, it is reached by recipients with live rows. -/
structure StaleMailIsNeutral (policy : Policy) (store : Store) (row : DepositRow) (now : Int) :
    Prop where
  recipient : FitsRecipient policy store row now ∨
    policy.recipientCapBytes <
      bytesOf (ofRecipient row.recipientHash (store.live now)) + row.ciphertext.length
  count : FitsRecipient policy store row now → OverRecipientLimit policy store row now →
    policy.maxRecipients ≤ (store.liveRecipients now).card
  server : FitsRecipient policy store row now → ¬ OverRecipientLimit policy store row now →
    bytesOf (store.unexpired now) + row.ciphertext.length ≤ policy.globalStorageCapBytes ∨
      policy.globalStorageCapBytes < bytesOf (store.live now) + row.ciphertext.length

theorem recipients_erase
    (hother : ∀ other, other ≠ recipient → first.rowsFor other = store.rowsFor other) :
    first.recipients.erase recipient = store.recipients.erase recipient := by
  ext other
  rw [Finset.mem_erase, Finset.mem_erase, mem_recipients, mem_recipients]
  refine and_congr_right fun hne => ?_
  rw [hother other hne]

theorem checkRecipientLimit_cases {policy : Policy} {row : DepositRow}
    (hempty : first.rowsFor row.recipientHash = [] ↔ Emptied store row.recipientHash
      row.ciphertext.length policy.recipientCapBytes now)
    (hother : ∀ other, other ≠ row.recipientHash → first.rowsFor other = store.rowsFor other) :
    (OverRecipientLimit policy store row now ∧
        first.checkRecipientLimit row.recipientHash policy.maxRecipients =
          .error (.policy .recipientLimit)) ∨
      (¬ OverRecipientLimit policy store row now ∧
        first.checkRecipientLimit row.recipientHash policy.maxRecipients = .ok ()) := by
  have hiff : (first.rowsFor row.recipientHash).length = 0 ∧
      first.distinctRecipients ≥ policy.maxRecipients ↔
        OverRecipientLimit policy store row now := by
    unfold OverRecipientLimit
    rw [List.length_eq_zero_iff, hempty]
    refine and_congr_right fun hemptied => ?_
    have hnone : row.recipientHash ∉ first.recipients := by
      rw [mem_recipients, not_not]
      exact hempty.mpr hemptied
    rw [distinctRecipients_eq_card, ← recipients_erase hother, Finset.erase_eq_of_notMem hnone]
  unfold checkRecipientLimit
  by_cases hover : OverRecipientLimit policy store row now
  · rw [if_pos (hiff.mpr hover)]
    exact .inl ⟨hover, rfl⟩
  · rw [if_neg (mt hiff.mp hover)]
    exact .inr ⟨hover, rfl⟩

theorem call_insert_cases (policy : Policy) (store : Store) (id : DepositId) (row : DepositRow)
    (now : Int) :
    (¬ FitsRecipient policy store row now ∧
        (store.call policy (.insert id row now) none).1 = .error (.policy .recipientFull)) ∨
      (FitsRecipient policy store row now ∧ OverRecipientLimit policy store row now ∧
        (store.call policy (.insert id row now) none).1 = .error (.policy .recipientLimit)) ∨
      (FitsRecipient policy store row now ∧ ¬ OverRecipientLimit policy store row now ∧
        policy.globalStorageCapBytes < bytesOf (store.unexpired now) + row.ciphertext.length ∧
        (store.call policy (.insert id row now) none).1 = .error (.policy .serverFull)) ∨
      (FitsRecipient policy store row now ∧ ¬ OverRecipientLimit policy store row now ∧
        bytesOf (store.unexpired now) + row.ciphertext.length ≤ policy.globalStorageCapBytes ∧
        ∀ kind, (store.call policy (.insert id row now) none).1 ≠ .error (.policy kind)) := by
  have hcall : (store.call policy (.insert id row now) none).1 =
      (Tx.settle store ((store.insert id row policy.recipientCapBytes
        policy.globalStorageCapBytes policy.maxRecipients now).map
          fun next => (Outcome.inserted id, next))).1 :=
    congrArg Prod.fst (Tx.run_none (Op.tx_computes policy store (.insert id row now)))
  rw [hcall]
  unfold FitsRecipient
  rcases store.fitRecipient_cases row.recipientHash row.ciphertext.length
      policy.recipientCapBytes now with ⟨hfull, hfit⟩ | ⟨hfits, first, hfit, hempty, hother⟩
  · left
    refine ⟨by omega, ?_⟩
    simp only [insert, hfit, bind, Except.bind, Except.map, Tx.settle]
  right
  rcases checkRecipientLimit_cases hempty hother with ⟨hover, hlimit⟩ | ⟨hunder, hlimit⟩
  · left
    refine ⟨hfits, hover, ?_⟩
    simp only [insert, hfit, hlimit, bind, Except.bind, Except.map, Tx.settle]
  right
  have hsame := (fitRecipient_evicted hfit).bytesOf_unexpired
  rcases first.fitGlobal_cases row.ciphertext.length policy.globalStorageCapBytes now with
    ⟨hfull, hglobal⟩ | ⟨hroom, second, hglobal⟩
  · left
    refine ⟨hfits, hunder, by omega, ?_⟩
    simp only [insert, hfit, hlimit, hglobal, bind, Except.bind, Except.map, Tx.settle]
  · right
    refine ⟨hfits, hunder, by omega, ?_⟩
    intro kind
    simp only [insert, hfit, hlimit, hglobal, bind, Except.bind]
    cases Table.insert second id row with
    | some | none =>
      intro herror
      cases herror

theorem notMem_liveRecipients (h : ofRecipient recipient (store.unexpired now) = []) :
    recipient ∉ store.liveRecipients now := by
  intro hmem
  rw [liveRecipients, List.mem_toFinset, List.mem_map] at hmem
  obtain ⟨row, hrow, rfl⟩ := hmem
  have hunexpired := (live_sublist_unexpired store now).subset hrow
  exact List.filter_eq_nil_iff.mp h row hunexpired (by simp)

/-- Refusals for space are due to live mail exactly when the mail that is no longer live tips no
cap. -/
theorem refused_for_live_mail_iff (policy : Policy) (store : Store) (id : DepositId)
    (row : DepositRow) (now : Int) :
    RefusedForLiveMail policy store row now (store.call policy (.insert id row now) none).1 ↔
      StaleMailIsNeutral policy store row now := by
  rcases call_insert_cases policy store id row now with
    ⟨hfull, hcall⟩ | ⟨hfits, hover, hcall⟩ | ⟨hfits, hunder, hfull, hcall⟩ |
      ⟨hfits, hunder, hroom, hcall⟩
  · rw [hcall]
    constructor
    · intro h
      exact ⟨.inr (h.recipientFull rfl), fun hfits => absurd hfits hfull,
        fun hfits => absurd hfits hfull⟩
    · intro h
      refine ⟨fun _ => h.recipient.resolve_left hfull, fun herror => ?_, fun herror => ?_⟩
      · cases herror
      · cases herror
  · rw [hcall]
    have hcard := Finset.card_insert_of_notMem (notMem_liveRecipients hover.1.1)
    constructor
    · intro h
      have hlimit := h.recipientLimit rfl
      exact ⟨.inl hfits, fun _ _ => by omega, fun _ hunder => absurd hover hunder⟩
    · intro h
      have hlimit := h.count hfits hover
      refine ⟨fun herror => ?_, fun _ => by omega, fun herror => ?_⟩
      · cases herror
      · cases herror
  · rw [hcall]
    constructor
    · intro h
      exact ⟨.inl hfits, fun _ hover => absurd hover hunder, fun _ _ => .inr (h.serverFull rfl)⟩
    · intro h
      refine ⟨fun herror => ?_, fun herror => ?_, fun _ => ?_⟩
      · cases herror
      · cases herror
      · rcases h.server hfits hunder with hfit | hlive
        · omega
        · exact hlive
  · constructor
    · intro _
      exact ⟨.inl hfits, fun _ hover => absurd hover hunder, fun _ _ => .inl hroom⟩
    · intro _
      exact ⟨fun herror => absurd herror (hcall _), fun herror => absurd herror (hcall _),
        fun herror => absurd herror (hcall _)⟩

/-- A store whose only row expired long ago, and a policy with room for one recipient. -/
def staleStore : Store := ⟨[(.fill 16 1, ⟨.fill 32 1, [0], 0, 50⟩)], by decide⟩

def onePolicy : Policy := { Policy.recommended with maxRecipients := 1 }

/-- The expired row of one recipient shuts out another one. -/
theorem stale_recipient_refuses_deposit :
    ¬ RefusedForLiveMail onePolicy staleStore ⟨.fill 32 2, [0], 100, 4000⟩ 100
      (staleStore.call onePolicy (.insert (.fill 16 2) ⟨.fill 32 2, [0], 100, 4000⟩ 100)
        none).1 := by
  intro h
  have hlimit := h.recipientLimit rfl
  revert hlimit
  decide

end Store

end Skattr.Mailbox
