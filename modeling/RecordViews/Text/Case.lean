import RecordViews.Text.CodePoints

/-!
Upper-case forms. A character may have an upper-case form of several characters. The tables leave
out ASCII.
-/

namespace RecordViews.Text

/-- A run of a case table: from `start`, `count` characters `stride` apart, the first of which maps
to `image` and each other as far from it. -/
structure CaseRun where
  start : Nat
  count : Nat
  stride : Nat
  image : Nat

namespace CaseRun

def ofNumbers : List Nat → List CaseRun
  | start :: count :: stride :: image :: rest => ⟨start, count, stride, image⟩ :: ofNumbers rest
  | _ => []

def image? (r : CaseRun) (n : Nat) : Option Nat :=
  if r.start ≤ n && n ≤ r.start + (r.count - 1) * r.stride && (n - r.start) % r.stride == 0 then
    some (r.image + (n - r.start))
  else none

def pairs (r : CaseRun) : List (Nat × Nat) :=
  (List.range r.count).map fun i => (r.start + i * r.stride, r.image + i * r.stride)

end CaseRun

def upperRuns : List CaseRun :=
  CaseRun.ofNumbers (numbers <| String.join [
    "181 1 1 924 224 23 1 192 248 7 1 216 255 1 1 376 257 24 2 256 305 1 1 73 307 3 2 306 314 8 2",
    " 313 331 23 2 330 378 3 2 377 383 1 1 83 384 1 1 579 387 2 2 386 392 1 1 391 396 1 1 395 402",
    " 1 1 401 405 1 1 502 409 2 8 408 410 1 1 573 411 1 1 42972 414 1 1 544 419 2 2 418 424 2 8 4",
    "23 429 1 1 428 436 2 2 435 441 1 1 440 445 2 8 444 447 1 1 503 454 3 3 452 456 3 3 455 464 7",
    " 2 463 477 1 1 398 479 9 2 478 498 2 3 497 499 1 1 497 505 20 2 504 547 9 2 546 572 1 1 571 ",
    "575 2 1 11390 578 1 1 577 583 5 2 582 592 1 1 11375 593 1 1 11373 594 1 1 11376 595 1 1 385 ",
    "596 1 1 390 598 2 1 393 601 1 1 399 603 1 1 400 604 1 1 42923 608 1 1 403 609 1 1 42924 611 ",
    "1 1 404 612 1 1 42955 613 1 1 42893 614 1 1 42922 616 1 1 407 617 1 1 406 618 1 1 42926 619 ",
    "1 1 11362 620 1 1 42925 623 1 1 412 625 1 1 11374 626 1 1 413 629 1 1 415 637 1 1 11364 640 ",
    "2 3 422 642 1 1 42949 647 1 1 42929 648 1 1 430 649 1 1 580 650 2 1 433 652 1 1 581 658 1 1 ",
    "439 669 1 1 42930 670 1 1 42928 837 1 1 921 881 2 2 880 887 1 1 886 891 3 1 1021 940 1 1 902",
    " 941 3 1 904 945 17 1 913 962 1 1 931 963 9 1 931 972 1 1 908 973 2 1 910 976 1 1 914 977 1 ",
    "1 920 981 1 1 934 982 1 1 928 983 1 1 975 985 12 2 984 1008 1 1 922 1009 1 1 929 1010 1 1 10",
    "17 1011 1 1 895 1013 1 1 917 1016 2 3 1015 1072 32 1 1040 1104 16 1 1024 1121 17 2 1120 1163",
    " 27 2 1162 1218 7 2 1217 1231 1 1 1216 1233 48 2 1232 1377 38 1 1329 4304 43 1 7312 4349 3 1",
    " 7357 5112 6 1 5104 7296 1 1 1042 7297 1 1 1044 7298 1 1 1054 7299 2 1 1057 7301 1 1 1058 73",
    "02 1 1 1066 7303 1 1 1122 7304 1 1 42570 7306 1 1 7305 7545 1 1 42877 7549 1 1 11363 7566 1 ",
    "1 42950 7681 75 2 7680 7835 1 1 7776 7841 48 2 7840 7936 8 1 7944 7952 6 1 7960 7968 8 1 797",
    "6 7984 8 1 7992 8000 6 1 8008 8017 4 2 8025 8032 8 1 8040 8048 2 1 8122 8050 4 1 8136 8054 2",
    " 1 8154 8056 2 1 8184 8058 2 1 8170 8060 2 1 8186 8112 2 1 8120 8126 1 1 921 8144 2 1 8152 8",
    "160 2 1 8168 8165 1 1 8172 8526 1 1 8498 8560 16 1 8544 8580 1 1 8579 9424 26 1 9398 11312 4",
    "8 1 11264 11361 1 1 11360 11365 1 1 570 11366 1 1 574 11368 3 2 11367 11379 2 3 11378 11393 ",
    "50 2 11392 11500 2 2 11499 11507 1 1 11506 11520 38 1 4256 11559 1 1 4295 11565 1 1 4301 425",
    "61 23 2 42560 42625 14 2 42624 42787 10 8 42786 42789 10 8 42788 42791 10 8 42790 42793 1 1 ",
    "42792 42809 7 8 42808 42874 2 2 42873 42879 5 2 42878 42892 1 1 42891 42897 4 8 42896 42899 ",
    "3 8 42898 42900 1 1 42948 42903 3 8 42902 42909 2 8 42908 42933 8 2 42932 42952 2 2 42951 42",
    "957 8 2 42956 42998 1 1 42997 43859 1 1 42931 43888 80 1 5024 65345 26 1 65313 66600 40 1 66",
    "560 66776 36 1 66736 66967 19 2 66928 66968 5 2 66929 66980 7 2 66941 66996 3 2 66957 67004 ",
    "1 1 66965 68800 51 1 68736 68976 22 1 68944 71872 32 1 71840 93792 32 1 93760 93883 25 1 938",
    "56 125218 34 1 125184"])

/-- Characters whose upper-case form is longer than one character, with its length and itself. -/
def longUpper : List (Nat × List Nat) :=
  let rec go : Nat → List Nat → List (Nat × List Nat)
    | fuel + 1, n :: len :: rest => (n, rest.take len) :: go fuel (rest.drop len)
    | _, _ => []
  let all := numbers <| String.join [
    "223 2 83 83 329 2 700 78 496 2 74 780 912 3 921 776 769 944 3 933 776 769 1415 2 1333 1362 7",
    "830 2 72 817 7831 2 84 776 7832 2 87 778 7833 2 89 778 7834 2 65 702 8016 2 933 787 8018 3 9",
    "33 787 768 8020 3 933 787 769 8022 3 933 787 834 8064 2 7944 921 8065 2 7945 921 8066 2 7946",
    " 921 8067 2 7947 921 8068 2 7948 921 8069 2 7949 921 8070 2 7950 921 8071 2 7951 921 8072 2 ",
    "7944 921 8073 2 7945 921 8074 2 7946 921 8075 2 7947 921 8076 2 7948 921 8077 2 7949 921 807",
    "8 2 7950 921 8079 2 7951 921 8080 2 7976 921 8081 2 7977 921 8082 2 7978 921 8083 2 7979 921",
    " 8084 2 7980 921 8085 2 7981 921 8086 2 7982 921 8087 2 7983 921 8088 2 7976 921 8089 2 7977",
    " 921 8090 2 7978 921 8091 2 7979 921 8092 2 7980 921 8093 2 7981 921 8094 2 7982 921 8095 2 ",
    "7983 921 8096 2 8040 921 8097 2 8041 921 8098 2 8042 921 8099 2 8043 921 8100 2 8044 921 810",
    "1 2 8045 921 8102 2 8046 921 8103 2 8047 921 8104 2 8040 921 8105 2 8041 921 8106 2 8042 921",
    " 8107 2 8043 921 8108 2 8044 921 8109 2 8045 921 8110 2 8046 921 8111 2 8047 921 8114 2 8122",
    " 921 8115 2 913 921 8116 2 902 921 8118 2 913 834 8119 3 913 834 921 8124 2 913 921 8130 2 8",
    "138 921 8131 2 919 921 8132 2 905 921 8134 2 919 834 8135 3 919 834 921 8140 2 919 921 8146 ",
    "3 921 776 768 8147 3 921 776 769 8150 2 921 834 8151 3 921 776 834 8162 3 933 776 768 8163 3",
    " 933 776 769 8164 2 929 787 8166 2 933 834 8167 3 933 776 834 8178 2 8186 921 8179 2 937 921",
    " 8180 2 911 921 8182 2 937 834 8183 3 937 834 921 8188 2 937 921 64256 2 70 70 64257 2 70 73",
    " 64258 2 70 76 64259 3 70 70 73 64260 3 70 70 76 64261 2 83 84 64262 2 83 84 64275 2 1348 13",
    "50 64276 2 1348 1333 64277 2 1348 1339 64278 2 1358 1350 64279 2 1348 1341"]
  go all.length all

def upper (c : Char) : List Char :=
  if c.toNat < 128 then [c.toUpper]
  else
    match longUpper.lookup c.toNat with
    | some cs => cs.map Char.ofNat
    | none => [Char.ofNat ((upperRuns.findSome? (·.image? c.toNat)).getD c.toNat)]

end RecordViews.Text
