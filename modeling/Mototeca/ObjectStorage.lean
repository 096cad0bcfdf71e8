import Mototeca.NetURL
import Mototeca.UploadRoute

/-!
# Deleting a stored file by its URL

`internal/storage`: `Put` builds the URL of an object from the configured base,
`Delete` takes the object's name back out of it. It reads the name behind
`/<bucket>/` at the root of the path, so the base must have no path.
-/

namespace Mototeca

/-- `storage.Store`, over the objects of its bucket. -/
structure Store where
  bucket : Bytes
  publicURL : Bytes
  deriving DecidableEq

def trimSlashes (s : Bytes) : Bytes := (s.reverse.dropWhile (· == 47)).reverse

def newStore (bucket publicURL : Bytes) : Store := ⟨bucket, trimSlashes publicURL⟩

/-- The rules of S3 for the name of a bucket, its last ones on dots aside. -/
def s3Legal (bucket : Bytes) : Bool :=
  let alnum (b : UInt8) : Bool := (97 ≤ b && b ≤ 122) || (48 ≤ b && b ≤ 57)
  3 ≤ bucket.length && bucket.length ≤ 63 && bucket.head?.all alnum && bucket.getLast?.all alnum &&
    bucket.all fun b => alnum b || b == 45 || b == 46

/-- `uuid.NewString()`: a random uuid, in lower case. -/
def isNewUUID (id : Bytes) : Bool :=
  validID id && id.all (fun b => !(65 ≤ b && b ≤ 70)) && id[14]? == some 52 &&
    id[19]?.any fun b => b == 56 || b == 57 || b == 97 || b == 98

namespace Store

variable (acceptsAuthority : Bytes → Bool) (store : Store)

/-- The object and its URL. -/
def put (objectPrefix id : Bytes) (contentType : String) (size : Int) (fails : Bool) : Except PutError (Bytes × Bytes) :=
  match allowedTypes.find? (·.1 == contentType) with
  | none => .error .unsupportedType
  | some (_, extension) =>
    if size ≤ 0 ∨ maxPhotoBytes < size then .error .size
    else if fails then .error .storing
    else
      let object := joinPath [objectPrefix, id ++ ascii extension]
      .ok (object, store.publicURL ++ 47 :: (store.bucket ++ 47 :: object))

def objectName (rawURL : Bytes) : Option Bytes :=
  match urlPath acceptsAuthority rawURL with
  | none => none
  | some path =>
    let start := 47 :: (store.bucket ++ [47])
    if start <+: path then some (path.drop start.length) else none

/-- The objects that are left, or the URL refused. -/
def delete (rawURL : Bytes) (objects : List Bytes) : Except Bytes (List Bytes) :=
  match store.objectName acceptsAuthority rawURL with
  | none => .error rawURL
  | some object => .ok (objects.filter (· != object))

end Store

/-! ## What Put writes -/

/-- No byte of a generated name means anything in a URL. -/
def isNameByte (b : UInt8) : Bool := 32 ≤ b && b != 127 && b != 35 && b != 37 && b != 47 && b != 63

/-- Neither a query, nor a fragment, nor a control character. -/
def Plain (s : Bytes) : Prop := Unbroken s ∧ hasControl s = false

/-- The bytes of a uuid, of an extension and of a bucket. -/
theorem isNameByte_of_word {b : UInt8}
    (h : (isHex b || (97 ≤ b && b ≤ 122) || (48 ≤ b && b ≤ 57) || b == 45 || b == 46) = true) : isNameByte b = true := by
  have hall : ∀ n : Fin 256, let b := UInt8.ofNat n
      (isHex b || (97 ≤ b && b ≤ 122) || (48 ≤ b && b ≤ 57) || b == 45 || b == 46) = true → isNameByte b = true := by
    decide +kernel
  have := hall ⟨b.toNat, b.toNat_lt⟩
  simp only [UInt8.ofNat_toNat] at this
  exact this h

theorem isNameByte_of_uuid {id : Bytes} (h : isNewUUID id = true) : ∀ b ∈ id, isNameByte b = true := by
  intro b hb
  have hid : validID id = true := by
    simp only [isNewUUID, Bool.and_eq_true] at h
    exact h.1.1.1
  obtain ⟨i, hi⟩ := List.mem_iff_getElem?.mp hb
  have hall := (Bool.and_eq_true_iff.mp hid).2
  rw [List.all_eq_true] at hall
  have := hall (b, i) (List.mem_zipIdx_iff_getElem?.mpr hi)
  dsimp only at this
  split at this
  · obtain rfl : b = 45 := by simpa using this
    decide
  · exact isNameByte_of_word (by simp [this])

theorem extension_bytes : ∀ p ∈ allowedTypes, ∀ b ∈ ascii p.2, isNameByte b = true := by decide +kernel

theorem plain_of_bytes {s : Bytes} (hbytes : ∀ b ∈ s, isNameByte b = true) :
    Plain s ∧ (37 : UInt8) ∉ s ∧ (47 : UInt8) ∉ s := by
  have hnot : ∀ b : UInt8, isNameByte b = false → b ∉ s := fun b hb hm => by simp [hbytes b hm] at hb
  refine ⟨⟨⟨hnot 35 rfl, hnot 63 rfl⟩, ?_⟩, hnot 37 rfl, hnot 47 rfl⟩
  rw [hasControl, List.any_eq_false]
  intro b hb
  have := hbytes b hb
  simp only [isNameByte, Bool.and_eq_true, decide_eq_true_eq, bne_iff_ne] at this
  have hle := this.1.1.1.1.1
  simp [this.1.1.1.1.2, UInt8.not_lt.mpr hle]

theorem isName_of_bytes {name : Bytes} (hbytes : ∀ b ∈ name, isNameByte b = true) (hlength : 2 < name.length) :
    IsName name := by
  refine ⟨?_, ?_, ?_, (plain_of_bytes hbytes).2.2⟩
  all_goals
    rintro rfl
    simp at hlength

theorem bucket_bytes {bucket : Bytes} (h : s3Legal bucket = true) :
    bucket ≠ [] ∧ ∀ b ∈ bucket, isNameByte b = true := by
  simp only [s3Legal, Bool.and_eq_true, decide_eq_true_eq, List.all_eq_true] at h
  refine ⟨?_, fun b hb => isNameByte_of_word ?_⟩
  · rintro rfl
    simp at h
  · have := h.2 b hb
    simp only [Bool.or_eq_true] at this ⊢
    tauto

namespace Store

variable {acceptsAuthority : Bytes → Bool} {store : Store}

theorem put_eq_ok {objectPrefix id : Bytes} {contentType : String} {size : Int} {fails : Bool} {object url : Bytes}
    (hid : isNewUUID id = true) (h : store.put objectPrefix id contentType size fails = .ok (object, url)) :
    ∃ name, (∀ b ∈ name, isNameByte b = true) ∧ object = dirOf objectPrefix ++ name ∧
      url = store.publicURL ++ 47 :: (store.bucket ++ 47 :: object) := by
  unfold put at h
  split at h
  · cases h
  · next mime extension hfind =>
    split at h
    · cases h
    · split at h
      · cases h
      · obtain ⟨rfl, rfl⟩ := Prod.mk.inj (Except.ok.inj h)
        have hbytes : ∀ b ∈ id ++ ascii extension, isNameByte b = true := by
          intro b hb
          rcases List.mem_append.mp hb with hb | hb
          · exact isNameByte_of_uuid hid b hb
          · exact extension_bytes _ (List.mem_of_find?_eq_some hfind) b hb
        have hlength : 2 < (id ++ ascii extension).length := by
          have : id.length = 36 := by
            simp only [isNewUUID, validID, Bool.and_eq_true, beq_iff_eq] at hid
            exact hid.1.1.1.1
          rw [List.length_append]
          omega
        exact ⟨_, hbytes, joinPath_name (isName_of_bytes hbytes hlength), rfl⟩

theorem objectName_iff {rawURL object : Bytes} : store.objectName acceptsAuthority rawURL = some object ↔
    urlPath acceptsAuthority rawURL = some (47 :: (store.bucket ++ 47 :: object)) := by
  have hstart : 47 :: (store.bucket ++ 47 :: object) = 47 :: (store.bucket ++ [47]) ++ object := by simp
  unfold objectName
  cases urlPath acceptsAuthority rawURL with
  | none => simp
  | some path =>
    rw [hstart, Option.some.injEq]
    dsimp only
    constructor
    · intro h
      split at h
      · next hprefix =>
        obtain ⟨rest, rfl⟩ := hprefix
        rw [List.drop_left, Option.some.injEq] at h
        rw [h]
      · cases h
    · rintro rfl
      rw [if_pos (List.prefix_append ..), List.drop_left]

/-- `Delete` of the URL that `Put` returns removes the object that `Put` wrote. -/
def UndoesPut (acceptsAuthority : Bytes → Bool) (store : Store) (objectPrefix : Bytes) : Prop :=
  ∀ id contentType size fails object url, isNewUUID id = true →
    store.put objectPrefix id contentType size fails = .ok (object, url) →
      store.objectName acceptsAuthority url = some object ∧
        ∀ objects, store.delete acceptsAuthority url objects = .ok (objects.filter (· != object))

theorem undoesPut_iff_path {objectPrefix : Bytes} : UndoesPut acceptsAuthority store objectPrefix ↔
    ∀ id contentType size fails object url, isNewUUID id = true →
      store.put objectPrefix id contentType size fails = .ok (object, url) →
        urlPath acceptsAuthority url = some (47 :: (store.bucket ++ 47 :: object)) := by
  constructor
  · intro h id contentType size fails object url hid hput
    exact objectName_iff.mp (h id contentType size fails object url hid hput).1
  · intro h id contentType size fails object url hid hput
    have hname : store.objectName acceptsAuthority url = some object :=
      objectName_iff.mpr (h id contentType size fails object url hid hput)
    exact ⟨hname, fun objects => by simp only [delete, hname]⟩

theorem head?_bucket {bucket t : Bytes} (h : s3Legal bucket = true) : (bucket ++ 47 :: t).head? ≠ some 47 := by
  obtain ⟨hne, hbytes⟩ := bucket_bytes h
  cases bucket with
  | nil => exact absurd rfl hne
  | cons b bucket =>
    intro he
    obtain rfl : b = 47 := by simpa using he
    exact absurd (hbytes 47 List.mem_cons_self) (by decide)

theorem getLast?_trimSlashes (s : Bytes) : (trimSlashes s).getLast? ≠ some 47 := by
  rw [trimSlashes, List.getLast?_reverse]
  intro h
  have := List.head?_dropWhile_not (· == 47) s.reverse
  rw [h] at this
  simp at this

/-- The URL of an object reads back where it is broken nowhere and the base has no path. -/
theorem urlPath_put {objectPrefix publicURL bucket name : Bytes} (hbucket : s3Legal bucket = true)
    (hname : ∀ b ∈ name, isNameByte b = true)
    (hhead : Unbroken (trimSlashes publicURL) ∧ Unbroken (dirOf objectPrefix)) :
    urlPath acceptsAuthority (trimSlashes publicURL ++ 47 :: (bucket ++ 47 :: (dirOf objectPrefix ++ name))) =
        some (47 :: (bucket ++ 47 :: (dirOf objectPrefix ++ name))) ↔
      (AtRoot acceptsAuthority (trimSlashes publicURL) ∧ hasControl (trimSlashes publicURL) = false) ∧
        hasControl (dirOf objectPrefix) = false ∧ (37 : UInt8) ∉ dirOf objectPrefix := by
  obtain ⟨⟨hunbrokenB, hcontrolB⟩, hpercentB, -⟩ := plain_of_bytes (bucket_bytes hbucket).2
  obtain ⟨⟨hunbrokenN, hcontrolN⟩, hpercentN, -⟩ := plain_of_bytes hname
  have hunbroken : Unbroken (trimSlashes publicURL ++ 47 :: (bucket ++ 47 :: (dirOf objectPrefix ++ name))) := by
    simp only [Unbroken, List.mem_append, List.mem_cons, not_or] at *
    refine ⟨⟨hhead.1.1, by decide, hunbrokenB.1, by decide, hhead.2.1, hunbrokenN.1⟩,
      hhead.1.2, by decide, hunbrokenB.2, by decide, hhead.2.2, hunbrokenN.2⟩
  have hpercent : (37 : UInt8) ∉ bucket ++ 47 :: (dirOf objectPrefix ++ name) ↔ (37 : UInt8) ∉ dirOf objectPrefix := by
    simp [hpercentB, hpercentN]
  have hcontrol : hasControl (trimSlashes publicURL ++ 47 :: (bucket ++ 47 :: (dirOf objectPrefix ++ name))) = false ↔
      hasControl (trimSlashes publicURL) = false ∧ hasControl (dirOf objectPrefix) = false := by
    simp only [hasControl, List.any_append, List.any_cons, Bool.or_eq_false_iff] at hcontrolB hcontrolN ⊢
    simp [hcontrolB, hcontrolN]
  rw [urlPath_unbroken hunbroken, hierarchicalPath_iff (getLast?_trimSlashes publicURL) (head?_bucket hbucket), hcontrol,
    hpercent]
  tauto

theorem jpeg_bytes {id : Bytes} (hid : isNewUUID id = true) : ∀ b ∈ id ++ ascii ".jpg", isNameByte b = true := by
  intro b hb
  rcases List.mem_append.mp hb with hb | hb
  · exact isNameByte_of_uuid hid b hb
  · exact extension_bytes ("image/jpeg", ".jpg") List.mem_cons_self b hb

theorem UndoesPut.jpeg {objectPrefix id : Bytes} (h : UndoesPut acceptsAuthority store objectPrefix)
    (hid : isNewUUID id = true) :
    urlPath acceptsAuthority (store.publicURL ++ 47 :: (store.bucket ++ 47 :: (dirOf objectPrefix ++ (id ++ ascii ".jpg")))) =
      some (47 :: (store.bucket ++ 47 :: (dirOf objectPrefix ++ (id ++ ascii ".jpg")))) := by
  have hlength : 2 < (id ++ ascii ".jpg").length := by
    have : (ascii ".jpg").length = 4 := rfl
    rw [List.length_append]
    omega
  rw [← joinPath_name (isName_of_bytes (jpeg_bytes hid) hlength)]
  exact undoesPut_iff_path.mp h id "image/jpeg" 1 false _ _ hid rfl

/-- Two objects have two names: a URL broken before its name has one path for both. -/
theorem UndoesPut.unbroken {objectPrefix : Bytes} (h : UndoesPut acceptsAuthority store objectPrefix) :
    Unbroken store.publicURL ∧ Unbroken (dirOf objectPrefix) := by
  by_contra hbroken
  have hhead : ¬ Unbroken (store.publicURL ++ 47 :: (store.bucket ++ 47 :: dirOf objectPrefix)) := by
    simp only [Unbroken, List.mem_append, List.mem_cons, not_or] at hbroken ⊢
    tauto
  have hone := h.jpeg (show isNewUUID (ascii "00000000-0000-4000-8000-000000000001") = true by decide)
  have htwo := h.jpeg (show isNewUUID (ascii "00000000-0000-4000-8000-000000000002") = true by decide)
  have hsplit : ∀ file : Bytes, store.publicURL ++ 47 :: (store.bucket ++ 47 :: (dirOf objectPrefix ++ file)) =
      store.publicURL ++ 47 :: (store.bucket ++ 47 :: dirOf objectPrefix) ++ file := by simp
  rw [hsplit] at hone htwo
  have hsame := urlPath_broken hhead hone htwo
  simp only [List.cons.injEq, true_and, List.append_cancel_left_eq, List.append_cancel_right_eq] at hsame
  exact absurd hsame (by decide)

end Store

/-- `ObjectName` undoes `Put` where the base has no path, query or fragment, and the
directory needs no escape. -/
theorem undoesPut_iff (acceptsAuthority : Bytes → Bool) (bucket publicURL objectPrefix : Bytes)
    (hbucket : s3Legal bucket = true) :
    (newStore bucket publicURL).UndoesPut acceptsAuthority objectPrefix ↔
      (AtRoot acceptsAuthority (trimSlashes publicURL) ∧ Plain (trimSlashes publicURL)) ∧
        Plain (dirOf objectPrefix) ∧ (37 : UInt8) ∉ dirOf objectPrefix := by
  constructor
  · intro h
    have hid : isNewUUID (ascii "00000000-0000-4000-8000-000000000001") = true := by decide
    have hunbroken := h.unbroken
    obtain ⟨⟨hroot, hbase⟩, hdir, hpercent⟩ := (Store.urlPath_put hbucket (Store.jpeg_bytes hid) hunbroken).mp (h.jpeg hid)
    exact ⟨⟨hroot, hunbroken.1, hbase⟩, ⟨hunbroken.2, hdir⟩, hpercent⟩
  · rintro ⟨⟨hroot, hunbroken, hbase⟩, ⟨hunbroken', hdir⟩, hpercent⟩
    refine Store.undoesPut_iff_path.mpr fun id contentType size fails object url hid hput => ?_
    obtain ⟨name, hname, rfl, rfl⟩ := Store.put_eq_ok hid hput
    exact (Store.urlPath_put hbucket hname ⟨hunbroken, hunbroken'⟩).mpr ⟨⟨hroot, hbase⟩, hdir, hpercent⟩

/-- Hosts with an optional port, as a configuration has them. -/
def plainHost (authority : Bytes) : Bool := authority.all fun b => isSchemeByte b || b == 58

def photosBucket : Bytes := ascii "mototeca-photos"

theorem undoesPut_local : (newStore photosBucket (ascii "http://localhost:9000/")).UndoesPut plainHost
    (ascii "00000000-0000-0000-0000-000000000001") :=
  (undoesPut_iff plainHost photosBucket _ _ (by decide)).mpr
    ⟨⟨⟨ascii "http", ascii "//localhost:9000", by decide, Or.inr ⟨ascii "localhost:9000", by decide, by decide, by decide,
      by decide⟩⟩, ⟨by decide, by decide⟩, by decide⟩, ⟨⟨by decide, by decide⟩, by decide⟩, by decide⟩

/-- Behind a path of a content delivery network, no URL of the store is one of its own. -/
theorem put_not_undone : ¬ ∀ (acceptsAuthority : Bytes → Bool) (bucket publicURL objectPrefix : Bytes),
    s3Legal bucket = true → publicURL ≠ [] → (newStore bucket publicURL).UndoesPut acceptsAuthority objectPrefix := by
  intro h
  have hundoes := h plainHost photosBucket (ascii "https://cdn.example.com/files") (ascii "record") (by decide) (by decide)
  have hid : isNewUUID (ascii "00000000-0000-4000-8000-000000000001") = true := by decide
  have hname := (hundoes _ "image/jpeg" 1 false _ _ hid rfl).1
  exact absurd hname (by decide)

end Mototeca
