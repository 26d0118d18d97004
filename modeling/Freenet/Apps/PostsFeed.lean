import Freenet.Lib.Outcome
import Mathlib.Data.List.Lex
import Mathlib.Data.List.Sort

/-! The posts contract of the microblog, whose summaries name a post by the hash of its texts run
together. -/
namespace Freenet.Apps.Posts
open Lib Outcome List

structure Post where
  author : String
  title : String
  content : String
  modMsg : Bool
  signature : Option (List UInt8)
  deriving DecidableEq

/-- What is hashed of a post. Nothing separates the texts. -/
def Post.bytes (post : Post) : List UInt8 :=
  post.author.toUTF8.data.toList ++ post.title.toUTF8.data.toList ++ post.content.toUTF8.data.toList

/-- The hash function, and the binary search as documented: what it finds is there, and in a sorted
slice it finds what is there. -/
structure Platform (H : Type) [LinearOrder H] where
  blake3 : List UInt8 → H
  blake3_injective : Function.Injective blake3
  binarySearch : List H → H → Bool
  mem_of_binarySearch : ∀ {keys key}, binarySearch keys key = true → key ∈ keys
  binarySearch_of_mem : ∀ {keys key}, keys.Pairwise (· ≤ ·) → key ∈ keys → binarySearch keys key = true

inductive ContractError where
  | invalidState
  | invalidDelta
  deriving DecidableEq

/-- A delta is the posts it is read as, if it can be read. -/
inductive UpdateData where
  | delta (posts : Option (List Post))
  | other

namespace Platform
variable {H : Type} [LinearOrder H] (platform : Platform H)

def hash (post : Post) : H := platform.blake3 post.bytes

def sortByHash (posts : List Post) : List Post :=
  posts.insertionSort fun a b => platform.hash a ≤ platform.hash b

def summarizeState (feed : List Post) : List H := feed.map platform.hash

/-- The posts that the summary does not name. A summary that cannot be read names none. -/
def getStateDelta (feed : List Post) (summary : Option (List H)) : List Post :=
  feed.filter fun post =>
    !platform.binarySearch ((summary.getD []).insertionSort (· ≤ ·)) (platform.hash post)

/-- A moderator's post needs a signature that can be verified. -/
def mergePost (verify : Option (Post → Outcome Bool)) (feed : List Post) (post : Post) :
    Outcome (List Post) :=
  if platform.binarySearch (feed.map platform.hash) (platform.hash post) then pure feed
  else if post.modMsg then
    match verify with
    | none => pure feed
    | some verify => do
      let verified ← verify post
      pure (if verified then feed ++ [post] else feed)
  else pure (feed ++ [post])

def updateState (verify : Option (Post → Outcome Bool)) (state : Option (List Post))
    (delta : List UpdateData) : Outcome (Except ContractError (List Post)) :=
  match state, delta with
  | none, _ => pure (.error .invalidState)
  | some _, [] => panicked .indexRange
  | some _, .other :: _ => panicked .expectFailed
  | some _, .delta none :: _ => pure (.error .invalidDelta)
  | some feed, .delta (some incoming) :: _ => do
    let merged ← (platform.sortByHash incoming).foldlM (platform.mergePost verify) (platform.sortByHash feed)
    pure (.ok merged)

/-- The second feed is updated with what it lacks of the first. -/
def synced (verify : Option (Post → Outcome Bool)) (s t : List Post) :
    Outcome (Except ContractError (List Post)) :=
  platform.updateState verify (some t)
    [.delta (some (platform.getStateDelta s (some (platform.summarizeState t))))]

variable {platform} {verify : Option (Post → Outcome Bool)} {posts : List Post}

theorem foldlM_mergePost {feed : List Post} (hmod : ∀ p ∈ posts, p.modMsg = false)
    (hnodup : ((feed ++ posts).map platform.hash).Nodup) :
    posts.foldlM (platform.mergePost verify) feed = ok (feed ++ posts) := by
  induction posts generalizing feed with
  | nil => simp
  | cons post posts ih =>
    have hnew : ¬ platform.binarySearch (feed.map platform.hash) (platform.hash post) = true := by
      intro hfound
      rw [map_append] at hnodup
      exact (nodup_append'.mp hnodup).2.2 (platform.mem_of_binarySearch hfound) mem_cons_self
    have hpush : platform.mergePost verify feed post = ok (feed ++ [post]) := by
      unfold mergePost
      rw [if_neg hnew, hmod post mem_cons_self]
      rfl
    rw [foldlM_cons, hpush, ok_bind, ih (fun p hp => hmod p (mem_cons_of_mem post hp))]
    · rw [append_assoc, singleton_append]
    · rwa [append_assoc]

theorem mem_getStateDelta_iff {s t : List Post} {post : Post} :
    post ∈ platform.getStateDelta s (some (platform.summarizeState t)) ↔
      post ∈ s ∧ platform.hash post ∉ t.map platform.hash := by
  have hsearch : platform.binarySearch ((t.map platform.hash).insertionSort (· ≤ ·))
      (platform.hash post) = true ↔ platform.hash post ∈ t.map platform.hash := by
    rw [← mem_insertionSort (· ≤ ·)]
    exact ⟨platform.mem_of_binarySearch, platform.binarySearch_of_mem (pairwise_insertionSort _ _)⟩
  unfold getStateDelta summarizeState
  rw [mem_filter, Option.getD_some, Bool.not_eq_true', ← Bool.not_eq_true, hsearch]

theorem synced_of_bytes_eq {p q : Post} (h : p.bytes = q.bytes) :
    platform.synced verify [p] [q] = ok (.ok [q]) := by
  have hnone : platform.getStateDelta [p] (some (platform.summarizeState [q])) = [] := by
    rw [eq_nil_iff_forall_not_mem]
    intro post hpost
    obtain ⟨hmem, hnot⟩ := mem_getStateDelta_iff.mp hpost
    rw [mem_singleton.mp hmem] at hnot
    exact hnot (mem_singleton.mpr (congrArg platform.blake3 h))
  unfold synced
  rw [hnone]
  rfl

variable {s t : List Post}

theorem hashes_nodup (hinj : Set.InjOn Post.bytes {p | p ∈ s ++ t}) (hs : s.Nodup) (ht : t.Nodup) :
    ((t ++ platform.getStateDelta s (some (platform.summarizeState t))).map platform.hash).Nodup := by
  refine Nodup.map_on ?_ (nodup_append'.mpr ⟨ht, hs.filter _, ?_⟩)
  · have hmem : ∀ p ∈ t ++ platform.getStateDelta s (some (platform.summarizeState t)), p ∈ s ++ t := by
      intro p hp
      rcases mem_append.mp hp with hold | hnew
      · exact mem_append_right s hold
      · exact mem_append_left t (mem_getStateDelta_iff.mp hnew).1
    intro p hp q hq heq
    exact hinj (hmem p hp) (hmem q hq) (platform.blake3_injective heq)
  · intro p hold hnew
    exact (mem_getStateDelta_iff.mp hnew).2 (mem_map_of_mem hold)

theorem synced_once (hinj : Set.InjOn Post.bytes {p | p ∈ s ++ t}) (hs : s.Nodup) (ht : t.Nodup)
    (hmod : ∀ p ∈ s, p.modMsg = false) :
    ∃ feed, platform.synced verify s t = ok (.ok feed) ∧ ∀ p ∈ s ++ t, feed.count p = 1 := by
  let delta := platform.getStateDelta s (some (platform.summarizeState t))
  have hperm : (platform.sortByHash t ++ platform.sortByHash delta).Perm (t ++ delta) :=
    (perm_insertionSort _ t).append (perm_insertionSort _ delta)
  have hnodup := (hperm.map platform.hash).nodup_iff.mpr (hashes_nodup hinj hs ht)
  refine ⟨platform.sortByHash t ++ platform.sortByHash delta, ?_, ?_⟩
  · unfold synced updateState
    dsimp only
    rw [foldlM_mergePost ?_ hnodup]
    · rfl
    · intro p hp
      rw [sortByHash, mem_insertionSort] at hp
      exact hmod p (mem_getStateDelta_iff.mp hp).1
  · intro p hp
    refine count_eq_one_of_mem hnodup.of_map (hperm.mem_iff.mpr ?_)
    by_cases hknown : platform.hash p ∈ t.map platform.hash
    · -- the post the summary names is this one
      obtain ⟨q, hq, heq⟩ := mem_map.mp hknown
      have hsame := hinj (mem_append_right s hq) hp (platform.blake3_injective heq)
      exact mem_append_left _ (hsame ▸ hq)
    · rcases mem_append.mp hp with hsource | hold
      · exact mem_append_right _ (mem_getStateDelta_iff.mpr ⟨hsource, hknown⟩)
      · exact mem_append_left _ hold

/-- For all feeds of posts by non-moderators from some set, the update brings every post of the two
exactly once, if and only if no two posts of the set run together to the same bytes. -/
theorem synced_once_iff (platform : Platform H) (verify : Option (Post → Outcome Bool)) (U : Set Post) :
    (∀ s t : List Post, s.Nodup → t.Nodup → (∀ p ∈ s ++ t, p ∈ U ∧ p.modMsg = false) →
      ∃ feed, platform.synced verify s t = ok (.ok feed) ∧ ∀ p ∈ s ++ t, feed.count p = 1) ↔
    Set.InjOn Post.bytes {p ∈ U | p.modMsg = false} := by
  constructor
  · intro hall p hp q hq heq
    by_contra hne
    obtain ⟨feed, hfeed, honce⟩ := hall [p] [q] (nodup_singleton p) (nodup_singleton q)
      (by simpa using ⟨hp, hq⟩)
    rw [synced_of_bytes_eq heq] at hfeed
    cases hfeed
    have hcount := honce p mem_cons_self
    rw [count_eq_zero_of_not_mem (by simpa using hne)] at hcount
    cases hcount
  · intro hinj s t hs ht hU
    exact synced_once (hinj.mono fun p hp => hU p hp) hs ht fun p hp => (hU p (mem_append_left t hp)).2

end Platform

/-- Bytes are their own hash, and the search goes through all keys. -/
def plainPlatform : Platform (List ℕ) where
  blake3 := map UInt8.toNat
  blake3_injective := map_injective_iff.mpr fun _ _ => UInt8.toNat_inj.mp
  binarySearch keys key := decide (key ∈ keys)
  mem_of_binarySearch := of_decide_eq_true
  binarySearch_of_mem _ h := decide_eq_true h

def postBy (author title : String) : Post := ⟨author, title, "", false, none⟩

/-- The title of the one post starts with the last letter of the other's author, and the post gets
lost. -/
theorem shifted_post_is_lost : postBy "ab" "c" ≠ postBy "a" "bc" ∧
    plainPlatform.synced none [postBy "ab" "c"] [postBy "a" "bc"] = ok (.ok [postBy "a" "bc"]) ∧
    [postBy "a" "bc"].count (postBy "ab" "c") = 0 := by
  have hne : postBy "ab" "c" ≠ postBy "a" "bc" := by decide
  exact ⟨hne, Platform.synced_of_bytes_eq (by decide +kernel), count_eq_zero_of_not_mem (by simpa using hne)⟩

end Freenet.Apps.Posts
