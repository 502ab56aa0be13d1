/-!
# Text.CategoryTable — general categories and scripts of the Unicode character database

A run `(first, last, step)` stands for `first`, `first + step`, … `last`. Runs are in ascending
order.
-/

namespace CallAtlas.Text.Category

/-- A run of code points: first, last and step. -/
abbrev Run := Nat × Nat × Nat

/-- Capital letters. -/
def upperLetter : List Run :=
  [(65, 90, 1), (192, 214, 1), (216, 222, 1), (256, 310, 2), (313, 327, 2), (330, 374, 2),
    (376, 377, 1), (379, 381, 2), (385, 386, 1), (388, 388, 1), (390, 391, 1), (393, 395, 1),
    (398, 401, 1), (403, 404, 1), (406, 408, 1), (412, 413, 1), (415, 416, 1), (418, 420, 2),
    (422, 423, 1), (425, 425, 1), (428, 428, 1), (430, 431, 1), (433, 435, 1), (437, 437, 1),
    (439, 440, 1), (444, 444, 1), (452, 452, 1), (455, 455, 1), (458, 458, 1), (461, 475, 2),
    (478, 494, 2), (497, 497, 1), (500, 500, 1), (502, 504, 1), (506, 562, 2), (570, 571, 1),
    (573, 574, 1), (577, 577, 1), (579, 582, 1), (584, 590, 2), (880, 882, 2), (886, 886, 1),
    (895, 895, 1), (902, 902, 1), (904, 906, 1), (908, 908, 1), (910, 911, 1), (913, 929, 1),
    (931, 939, 1), (975, 975, 1), (978, 980, 1), (984, 1006, 2), (1012, 1012, 1), (1015, 1015, 1),
    (1017, 1018, 1), (1021, 1071, 1), (1120, 1152, 2), (1162, 1214, 2), (1216, 1217, 1),
    (1219, 1229, 2), (1232, 1326, 2), (1329, 1366, 1), (4256, 4293, 1), (4295, 4295, 1),
    (4301, 4301, 1), (5024, 5109, 1), (7312, 7354, 1), (7357, 7359, 1), (7680, 7828, 2),
    (7838, 7934, 2), (7944, 7951, 1), (7960, 7965, 1), (7976, 7983, 1), (7992, 7999, 1),
    (8008, 8013, 1), (8025, 8031, 2), (8040, 8047, 1), (8120, 8123, 1), (8136, 8139, 1),
    (8152, 8155, 1), (8168, 8172, 1), (8184, 8187, 1), (8450, 8450, 1), (8455, 8455, 1),
    (8459, 8461, 1), (8464, 8466, 1), (8469, 8469, 1), (8473, 8477, 1), (8484, 8488, 2),
    (8490, 8493, 1), (8496, 8499, 1), (8510, 8511, 1), (8517, 8517, 1), (8579, 8579, 1),
    (11264, 11311, 1), (11360, 11360, 1), (11362, 11364, 1), (11367, 11371, 2), (11373, 11376, 1),
    (11378, 11378, 1), (11381, 11381, 1), (11390, 11392, 1), (11394, 11490, 2), (11499, 11501, 2),
    (11506, 11506, 1), (42560, 42604, 2), (42624, 42650, 2), (42786, 42798, 2), (42802, 42862, 2),
    (42873, 42875, 2), (42877, 42878, 1), (42880, 42886, 2), (42891, 42893, 2), (42896, 42898, 2),
    (42902, 42920, 2), (42922, 42926, 1), (42928, 42932, 1), (42934, 42946, 2), (42948, 42951, 1),
    (42953, 42953, 1), (42960, 42960, 1), (42966, 42968, 2), (42997, 42997, 1), (65313, 65338, 1),
    (66560, 66599, 1), (66736, 66771, 1), (66928, 66938, 1), (66940, 66954, 1), (66956, 66962, 1),
    (66964, 66965, 1), (68736, 68786, 1), (71840, 71871, 1), (93760, 93791, 1), (119808, 119833, 1),
    (119860, 119885, 1), (119912, 119937, 1), (119964, 119964, 1), (119966, 119967, 1),
    (119970, 119970, 1), (119973, 119974, 1), (119977, 119980, 1), (119982, 119989, 1),
    (120016, 120041, 1), (120068, 120069, 1), (120071, 120074, 1), (120077, 120084, 1),
    (120086, 120092, 1), (120120, 120121, 1), (120123, 120126, 1), (120128, 120132, 1),
    (120134, 120134, 1), (120138, 120144, 1), (120172, 120197, 1), (120224, 120249, 1),
    (120276, 120301, 1), (120328, 120353, 1), (120380, 120405, 1), (120432, 120457, 1),
    (120488, 120512, 1), (120546, 120570, 1), (120604, 120628, 1), (120662, 120686, 1),
    (120720, 120744, 1), (120778, 120778, 1), (125184, 125217, 1)]

/-- Small letters. -/
def lowerLetter : List Run :=
  [(97, 122, 1), (181, 181, 1), (223, 246, 1), (248, 255, 1), (257, 309, 2), (311, 312, 1),
    (314, 326, 2), (328, 329, 1), (331, 375, 2), (378, 380, 2), (382, 384, 1), (387, 389, 2),
    (392, 392, 1), (396, 397, 1), (402, 402, 1), (405, 405, 1), (409, 411, 1), (414, 414, 1),
    (417, 421, 2), (424, 424, 1), (426, 427, 1), (429, 429, 1), (432, 432, 1), (436, 438, 2),
    (441, 442, 1), (445, 447, 1), (454, 454, 1), (457, 457, 1), (460, 474, 2), (476, 477, 1),
    (479, 493, 2), (495, 496, 1), (499, 501, 2), (505, 561, 2), (563, 569, 1), (572, 572, 1),
    (575, 576, 1), (578, 578, 1), (583, 589, 2), (591, 659, 1), (661, 687, 1), (881, 883, 2),
    (887, 887, 1), (891, 893, 1), (912, 912, 1), (940, 974, 1), (976, 977, 1), (981, 983, 1),
    (985, 1005, 2), (1007, 1011, 1), (1013, 1013, 1), (1016, 1016, 1), (1019, 1020, 1),
    (1072, 1119, 1), (1121, 1153, 2), (1163, 1215, 2), (1218, 1228, 2), (1230, 1231, 1),
    (1233, 1327, 2), (1376, 1416, 1), (4304, 4346, 1), (4349, 4351, 1), (5112, 5117, 1),
    (7296, 7304, 1), (7424, 7467, 1), (7531, 7543, 1), (7545, 7578, 1), (7681, 7827, 2),
    (7829, 7837, 1), (7839, 7933, 2), (7935, 7943, 1), (7952, 7957, 1), (7968, 7975, 1),
    (7984, 7991, 1), (8000, 8005, 1), (8016, 8023, 1), (8032, 8039, 1), (8048, 8061, 1),
    (8064, 8071, 1), (8080, 8087, 1), (8096, 8103, 1), (8112, 8116, 1), (8118, 8119, 1),
    (8126, 8126, 1), (8130, 8132, 1), (8134, 8135, 1), (8144, 8147, 1), (8150, 8151, 1),
    (8160, 8167, 1), (8178, 8180, 1), (8182, 8183, 1), (8458, 8458, 1), (8462, 8463, 1),
    (8467, 8467, 1), (8495, 8495, 1), (8500, 8500, 1), (8505, 8505, 1), (8508, 8509, 1),
    (8518, 8521, 1), (8526, 8526, 1), (8580, 8580, 1), (11312, 11359, 1), (11361, 11361, 1),
    (11365, 11366, 1), (11368, 11372, 2), (11377, 11377, 1), (11379, 11380, 1), (11382, 11387, 1),
    (11393, 11489, 2), (11491, 11492, 1), (11500, 11502, 2), (11507, 11507, 1), (11520, 11557, 1),
    (11559, 11559, 1), (11565, 11565, 1), (42561, 42605, 2), (42625, 42651, 2), (42787, 42797, 2),
    (42799, 42801, 1), (42803, 42863, 2), (42865, 42872, 1), (42874, 42876, 2), (42879, 42887, 2),
    (42892, 42894, 2), (42897, 42897, 1), (42899, 42901, 1), (42903, 42921, 2), (42927, 42927, 1),
    (42933, 42947, 2), (42952, 42954, 2), (42961, 42969, 2), (42998, 42998, 1), (43002, 43002, 1),
    (43824, 43866, 1), (43872, 43880, 1), (43888, 43967, 1), (64256, 64262, 1), (64275, 64279, 1),
    (65345, 65370, 1), (66600, 66639, 1), (66776, 66811, 1), (66967, 66977, 1), (66979, 66993, 1),
    (66995, 67001, 1), (67003, 67004, 1), (68800, 68850, 1), (71872, 71903, 1), (93792, 93823, 1),
    (119834, 119859, 1), (119886, 119892, 1), (119894, 119911, 1), (119938, 119963, 1),
    (119990, 119993, 1), (119995, 119995, 1), (119997, 120003, 1), (120005, 120015, 1),
    (120042, 120067, 1), (120094, 120119, 1), (120146, 120171, 1), (120198, 120223, 1),
    (120250, 120275, 1), (120302, 120327, 1), (120354, 120379, 1), (120406, 120431, 1),
    (120458, 120485, 1), (120514, 120538, 1), (120540, 120545, 1), (120572, 120596, 1),
    (120598, 120603, 1), (120630, 120654, 1), (120656, 120661, 1), (120688, 120712, 1),
    (120714, 120719, 1), (120746, 120770, 1), (120772, 120777, 1), (120779, 120779, 1),
    (122624, 122633, 1), (122635, 122654, 1), (122661, 122666, 1), (125218, 125251, 1)]

/-- Digraphs with a capital first part. -/
def titleLetter : List Run :=
  [(453, 453, 1), (456, 456, 1), (459, 459, 1), (498, 498, 1), (8072, 8079, 1), (8088, 8095, 1),
    (8104, 8111, 1), (8124, 8124, 1), (8140, 8140, 1), (8188, 8188, 1)]

/-- Letters that modify another. -/
def modifierLetter : List Run :=
  [(688, 705, 1), (710, 721, 1), (736, 740, 1), (748, 750, 2), (884, 884, 1), (890, 890, 1),
    (1369, 1369, 1), (1600, 1600, 1), (1765, 1766, 1), (2036, 2037, 1), (2042, 2042, 1),
    (2074, 2074, 1), (2084, 2084, 1), (2088, 2088, 1), (2249, 2249, 1), (2417, 2417, 1),
    (3654, 3654, 1), (3782, 3782, 1), (4348, 4348, 1), (6103, 6103, 1), (6211, 6211, 1),
    (6823, 6823, 1), (7288, 7293, 1), (7468, 7530, 1), (7544, 7544, 1), (7579, 7615, 1),
    (8305, 8305, 1), (8319, 8319, 1), (8336, 8348, 1), (11388, 11389, 1), (11631, 11631, 1),
    (11823, 11823, 1), (12293, 12293, 1), (12337, 12341, 1), (12347, 12347, 1), (12445, 12446, 1),
    (12540, 12542, 1), (40981, 40981, 1), (42232, 42237, 1), (42508, 42508, 1), (42623, 42623, 1),
    (42652, 42653, 1), (42775, 42783, 1), (42864, 42864, 1), (42888, 42888, 1), (42994, 42996, 1),
    (43000, 43001, 1), (43471, 43471, 1), (43494, 43494, 1), (43632, 43632, 1), (43741, 43741, 1),
    (43763, 43764, 1), (43868, 43871, 1), (43881, 43881, 1), (65392, 65392, 1), (65438, 65439, 1),
    (67456, 67461, 1), (67463, 67504, 1), (67506, 67514, 1), (92992, 92995, 1), (94099, 94111, 1),
    (94176, 94177, 1), (94179, 94179, 1), (110576, 110579, 1), (110581, 110587, 1),
    (110589, 110590, 1), (122928, 122989, 1), (123191, 123197, 1), (124139, 124139, 1),
    (125259, 125259, 1)]

/-- Letters without case. -/
def otherLetter : List Run :=
  [(170, 170, 1), (186, 186, 1), (443, 443, 1), (448, 451, 1), (660, 660, 1), (1488, 1514, 1),
    (1519, 1522, 1), (1568, 1599, 1), (1601, 1610, 1), (1646, 1647, 1), (1649, 1747, 1),
    (1749, 1749, 1), (1774, 1775, 1), (1786, 1788, 1), (1791, 1791, 1), (1808, 1808, 1),
    (1810, 1839, 1), (1869, 1957, 1), (1969, 1969, 1), (1994, 2026, 1), (2048, 2069, 1),
    (2112, 2136, 1), (2144, 2154, 1), (2160, 2183, 1), (2185, 2190, 1), (2208, 2248, 1),
    (2308, 2361, 1), (2365, 2365, 1), (2384, 2384, 1), (2392, 2401, 1), (2418, 2432, 1),
    (2437, 2444, 1), (2447, 2448, 1), (2451, 2472, 1), (2474, 2480, 1), (2482, 2482, 1),
    (2486, 2489, 1), (2493, 2493, 1), (2510, 2510, 1), (2524, 2525, 1), (2527, 2529, 1),
    (2544, 2545, 1), (2556, 2556, 1), (2565, 2570, 1), (2575, 2576, 1), (2579, 2600, 1),
    (2602, 2608, 1), (2610, 2611, 1), (2613, 2614, 1), (2616, 2617, 1), (2649, 2652, 1),
    (2654, 2654, 1), (2674, 2676, 1), (2693, 2701, 1), (2703, 2705, 1), (2707, 2728, 1),
    (2730, 2736, 1), (2738, 2739, 1), (2741, 2745, 1), (2749, 2749, 1), (2768, 2768, 1),
    (2784, 2785, 1), (2809, 2809, 1), (2821, 2828, 1), (2831, 2832, 1), (2835, 2856, 1),
    (2858, 2864, 1), (2866, 2867, 1), (2869, 2873, 1), (2877, 2877, 1), (2908, 2909, 1),
    (2911, 2913, 1), (2929, 2929, 1), (2947, 2947, 1), (2949, 2954, 1), (2958, 2960, 1),
    (2962, 2965, 1), (2969, 2970, 1), (2972, 2972, 1), (2974, 2975, 1), (2979, 2980, 1),
    (2984, 2986, 1), (2990, 3001, 1), (3024, 3024, 1), (3077, 3084, 1), (3086, 3088, 1),
    (3090, 3112, 1), (3114, 3129, 1), (3133, 3133, 1), (3160, 3162, 1), (3165, 3165, 1),
    (3168, 3169, 1), (3200, 3200, 1), (3205, 3212, 1), (3214, 3216, 1), (3218, 3240, 1),
    (3242, 3251, 1), (3253, 3257, 1), (3261, 3261, 1), (3293, 3294, 1), (3296, 3297, 1),
    (3313, 3314, 1), (3332, 3340, 1), (3342, 3344, 1), (3346, 3386, 1), (3389, 3389, 1),
    (3406, 3406, 1), (3412, 3414, 1), (3423, 3425, 1), (3450, 3455, 1), (3461, 3478, 1),
    (3482, 3505, 1), (3507, 3515, 1), (3517, 3517, 1), (3520, 3526, 1), (3585, 3632, 1),
    (3634, 3635, 1), (3648, 3653, 1), (3713, 3714, 1), (3716, 3716, 1), (3718, 3722, 1),
    (3724, 3747, 1), (3749, 3749, 1), (3751, 3760, 1), (3762, 3763, 1), (3773, 3773, 1),
    (3776, 3780, 1), (3804, 3807, 1), (3840, 3840, 1), (3904, 3911, 1), (3913, 3948, 1),
    (3976, 3980, 1), (4096, 4138, 1), (4159, 4159, 1), (4176, 4181, 1), (4186, 4189, 1),
    (4193, 4193, 1), (4197, 4198, 1), (4206, 4208, 1), (4213, 4225, 1), (4238, 4238, 1),
    (4352, 4680, 1), (4682, 4685, 1), (4688, 4694, 1), (4696, 4696, 1), (4698, 4701, 1),
    (4704, 4744, 1), (4746, 4749, 1), (4752, 4784, 1), (4786, 4789, 1), (4792, 4798, 1),
    (4800, 4800, 1), (4802, 4805, 1), (4808, 4822, 1), (4824, 4880, 1), (4882, 4885, 1),
    (4888, 4954, 1), (4992, 5007, 1), (5121, 5740, 1), (5743, 5759, 1), (5761, 5786, 1),
    (5792, 5866, 1), (5873, 5880, 1), (5888, 5905, 1), (5919, 5937, 1), (5952, 5969, 1),
    (5984, 5996, 1), (5998, 6000, 1), (6016, 6067, 1), (6108, 6108, 1), (6176, 6210, 1),
    (6212, 6264, 1), (6272, 6276, 1), (6279, 6312, 1), (6314, 6314, 1), (6320, 6389, 1),
    (6400, 6430, 1), (6480, 6509, 1), (6512, 6516, 1), (6528, 6571, 1), (6576, 6601, 1),
    (6656, 6678, 1), (6688, 6740, 1), (6917, 6963, 1), (6981, 6988, 1), (7043, 7072, 1),
    (7086, 7087, 1), (7098, 7141, 1), (7168, 7203, 1), (7245, 7247, 1), (7258, 7287, 1),
    (7401, 7404, 1), (7406, 7411, 1), (7413, 7414, 1), (7418, 7418, 1), (8501, 8504, 1),
    (11568, 11623, 1), (11648, 11670, 1), (11680, 11686, 1), (11688, 11694, 1), (11696, 11702, 1),
    (11704, 11710, 1), (11712, 11718, 1), (11720, 11726, 1), (11728, 11734, 1), (11736, 11742, 1),
    (12294, 12294, 1), (12348, 12348, 1), (12353, 12438, 1), (12447, 12447, 1), (12449, 12538, 1),
    (12543, 12543, 1), (12549, 12591, 1), (12593, 12686, 1), (12704, 12735, 1), (12784, 12799, 1),
    (13312, 19903, 1), (19968, 40980, 1), (40982, 42124, 1), (42192, 42231, 1), (42240, 42507, 1),
    (42512, 42527, 1), (42538, 42539, 1), (42606, 42606, 1), (42656, 42725, 1), (42895, 42895, 1),
    (42999, 42999, 1), (43003, 43009, 1), (43011, 43013, 1), (43015, 43018, 1), (43020, 43042, 1),
    (43072, 43123, 1), (43138, 43187, 1), (43250, 43255, 1), (43259, 43259, 1), (43261, 43262, 1),
    (43274, 43301, 1), (43312, 43334, 1), (43360, 43388, 1), (43396, 43442, 1), (43488, 43492, 1),
    (43495, 43503, 1), (43514, 43518, 1), (43520, 43560, 1), (43584, 43586, 1), (43588, 43595, 1),
    (43616, 43631, 1), (43633, 43638, 1), (43642, 43642, 1), (43646, 43695, 1), (43697, 43697, 1),
    (43701, 43702, 1), (43705, 43709, 1), (43712, 43714, 2), (43739, 43740, 1), (43744, 43754, 1),
    (43762, 43762, 1), (43777, 43782, 1), (43785, 43790, 1), (43793, 43798, 1), (43808, 43814, 1),
    (43816, 43822, 1), (43968, 44002, 1), (44032, 55203, 1), (55216, 55238, 1), (55243, 55291, 1),
    (63744, 64109, 1), (64112, 64217, 1), (64285, 64285, 1), (64287, 64296, 1), (64298, 64310, 1),
    (64312, 64316, 1), (64318, 64318, 1), (64320, 64321, 1), (64323, 64324, 1), (64326, 64433, 1),
    (64467, 64829, 1), (64848, 64911, 1), (64914, 64967, 1), (65008, 65019, 1), (65136, 65140, 1),
    (65142, 65276, 1), (65382, 65391, 1), (65393, 65437, 1), (65440, 65470, 1), (65474, 65479, 1),
    (65482, 65487, 1), (65490, 65495, 1), (65498, 65500, 1), (65536, 65547, 1), (65549, 65574, 1),
    (65576, 65594, 1), (65596, 65597, 1), (65599, 65613, 1), (65616, 65629, 1), (65664, 65786, 1),
    (66176, 66204, 1), (66208, 66256, 1), (66304, 66335, 1), (66349, 66368, 1), (66370, 66377, 1),
    (66384, 66421, 1), (66432, 66461, 1), (66464, 66499, 1), (66504, 66511, 1), (66640, 66717, 1),
    (66816, 66855, 1), (66864, 66915, 1), (67072, 67382, 1), (67392, 67413, 1), (67424, 67431, 1),
    (67584, 67589, 1), (67592, 67592, 1), (67594, 67637, 1), (67639, 67640, 1), (67644, 67644, 1),
    (67647, 67669, 1), (67680, 67702, 1), (67712, 67742, 1), (67808, 67826, 1), (67828, 67829, 1),
    (67840, 67861, 1), (67872, 67897, 1), (67968, 68023, 1), (68030, 68031, 1), (68096, 68096, 1),
    (68112, 68115, 1), (68117, 68119, 1), (68121, 68149, 1), (68192, 68220, 1), (68224, 68252, 1),
    (68288, 68295, 1), (68297, 68324, 1), (68352, 68405, 1), (68416, 68437, 1), (68448, 68466, 1),
    (68480, 68497, 1), (68608, 68680, 1), (68864, 68899, 1), (69248, 69289, 1), (69296, 69297, 1),
    (69376, 69404, 1), (69415, 69415, 1), (69424, 69445, 1), (69488, 69505, 1), (69552, 69572, 1),
    (69600, 69622, 1), (69635, 69687, 1), (69745, 69746, 1), (69749, 69749, 1), (69763, 69807, 1),
    (69840, 69864, 1), (69891, 69926, 1), (69956, 69956, 1), (69959, 69959, 1), (69968, 70002, 1),
    (70006, 70006, 1), (70019, 70066, 1), (70081, 70084, 1), (70106, 70108, 2), (70144, 70161, 1),
    (70163, 70187, 1), (70207, 70208, 1), (70272, 70278, 1), (70280, 70280, 1), (70282, 70285, 1),
    (70287, 70301, 1), (70303, 70312, 1), (70320, 70366, 1), (70405, 70412, 1), (70415, 70416, 1),
    (70419, 70440, 1), (70442, 70448, 1), (70450, 70451, 1), (70453, 70457, 1), (70461, 70461, 1),
    (70480, 70480, 1), (70493, 70497, 1), (70656, 70708, 1), (70727, 70730, 1), (70751, 70753, 1),
    (70784, 70831, 1), (70852, 70853, 1), (70855, 70855, 1), (71040, 71086, 1), (71128, 71131, 1),
    (71168, 71215, 1), (71236, 71236, 1), (71296, 71338, 1), (71352, 71352, 1), (71424, 71450, 1),
    (71488, 71494, 1), (71680, 71723, 1), (71935, 71942, 1), (71945, 71945, 1), (71948, 71955, 1),
    (71957, 71958, 1), (71960, 71983, 1), (71999, 72001, 2), (72096, 72103, 1), (72106, 72144, 1),
    (72161, 72163, 2), (72192, 72192, 1), (72203, 72242, 1), (72250, 72250, 1), (72272, 72272, 1),
    (72284, 72329, 1), (72349, 72349, 1), (72368, 72440, 1), (72704, 72712, 1), (72714, 72750, 1),
    (72768, 72768, 1), (72818, 72847, 1), (72960, 72966, 1), (72968, 72969, 1), (72971, 73008, 1),
    (73030, 73030, 1), (73056, 73061, 1), (73063, 73064, 1), (73066, 73097, 1), (73112, 73112, 1),
    (73440, 73458, 1), (73474, 73474, 1), (73476, 73488, 1), (73490, 73523, 1), (73648, 73648, 1),
    (73728, 74649, 1), (74880, 75075, 1), (77712, 77808, 1), (77824, 78895, 1), (78913, 78918, 1),
    (82944, 83526, 1), (92160, 92728, 1), (92736, 92766, 1), (92784, 92862, 1), (92880, 92909, 1),
    (92928, 92975, 1), (93027, 93047, 1), (93053, 93071, 1), (93952, 94026, 1), (94032, 94032, 1),
    (94208, 100343, 1), (100352, 101589, 1), (101632, 101640, 1), (110592, 110882, 1),
    (110898, 110898, 1), (110928, 110930, 1), (110933, 110933, 1), (110948, 110951, 1),
    (110960, 111355, 1), (113664, 113770, 1), (113776, 113788, 1), (113792, 113800, 1),
    (113808, 113817, 1), (122634, 122634, 1), (123136, 123180, 1), (123214, 123214, 1),
    (123536, 123565, 1), (123584, 123627, 1), (124112, 124138, 1), (124896, 124902, 1),
    (124904, 124907, 1), (124909, 124910, 1), (124912, 124926, 1), (124928, 125124, 1),
    (126464, 126467, 1), (126469, 126495, 1), (126497, 126498, 1), (126500, 126500, 1),
    (126503, 126503, 1), (126505, 126514, 1), (126516, 126519, 1), (126521, 126523, 2),
    (126530, 126530, 1), (126535, 126539, 2), (126541, 126543, 1), (126545, 126546, 1),
    (126548, 126548, 1), (126551, 126559, 2), (126561, 126562, 1), (126564, 126564, 1),
    (126567, 126570, 1), (126572, 126578, 1), (126580, 126583, 1), (126585, 126588, 1),
    (126590, 126590, 1), (126592, 126601, 1), (126603, 126619, 1), (126625, 126627, 1),
    (126629, 126633, 1), (126635, 126651, 1), (131072, 173791, 1), (173824, 177977, 1),
    (177984, 178205, 1), (178208, 183969, 1), (183984, 191456, 1), (194560, 195101, 1),
    (196608, 201546, 1), (201552, 205743, 1)]

/-- Marks without width. -/
def nonspacingMark : List Run :=
  [(768, 879, 1), (1155, 1159, 1), (1425, 1469, 1), (1471, 1471, 1), (1473, 1474, 1),
    (1476, 1477, 1), (1479, 1479, 1), (1552, 1562, 1), (1611, 1631, 1), (1648, 1648, 1),
    (1750, 1756, 1), (1759, 1764, 1), (1767, 1768, 1), (1770, 1773, 1), (1809, 1809, 1),
    (1840, 1866, 1), (1958, 1968, 1), (2027, 2035, 1), (2045, 2045, 1), (2070, 2073, 1),
    (2075, 2083, 1), (2085, 2087, 1), (2089, 2093, 1), (2137, 2139, 1), (2200, 2207, 1),
    (2250, 2273, 1), (2275, 2306, 1), (2362, 2364, 2), (2369, 2376, 1), (2381, 2381, 1),
    (2385, 2391, 1), (2402, 2403, 1), (2433, 2433, 1), (2492, 2492, 1), (2497, 2500, 1),
    (2509, 2509, 1), (2530, 2531, 1), (2558, 2558, 1), (2561, 2562, 1), (2620, 2620, 1),
    (2625, 2626, 1), (2631, 2632, 1), (2635, 2637, 1), (2641, 2641, 1), (2672, 2673, 1),
    (2677, 2677, 1), (2689, 2690, 1), (2748, 2748, 1), (2753, 2757, 1), (2759, 2760, 1),
    (2765, 2765, 1), (2786, 2787, 1), (2810, 2815, 1), (2817, 2817, 1), (2876, 2876, 1),
    (2879, 2879, 1), (2881, 2884, 1), (2893, 2893, 1), (2901, 2902, 1), (2914, 2915, 1),
    (2946, 2946, 1), (3008, 3008, 1), (3021, 3021, 1), (3072, 3072, 1), (3076, 3076, 1),
    (3132, 3132, 1), (3134, 3136, 1), (3142, 3144, 1), (3146, 3149, 1), (3157, 3158, 1),
    (3170, 3171, 1), (3201, 3201, 1), (3260, 3260, 1), (3263, 3263, 1), (3270, 3270, 1),
    (3276, 3277, 1), (3298, 3299, 1), (3328, 3329, 1), (3387, 3388, 1), (3393, 3396, 1),
    (3405, 3405, 1), (3426, 3427, 1), (3457, 3457, 1), (3530, 3530, 1), (3538, 3540, 1),
    (3542, 3542, 1), (3633, 3633, 1), (3636, 3642, 1), (3655, 3662, 1), (3761, 3761, 1),
    (3764, 3772, 1), (3784, 3790, 1), (3864, 3865, 1), (3893, 3897, 2), (3953, 3966, 1),
    (3968, 3972, 1), (3974, 3975, 1), (3981, 3991, 1), (3993, 4028, 1), (4038, 4038, 1),
    (4141, 4144, 1), (4146, 4151, 1), (4153, 4154, 1), (4157, 4158, 1), (4184, 4185, 1),
    (4190, 4192, 1), (4209, 4212, 1), (4226, 4226, 1), (4229, 4230, 1), (4237, 4237, 1),
    (4253, 4253, 1), (4957, 4959, 1), (5906, 5908, 1), (5938, 5939, 1), (5970, 5971, 1),
    (6002, 6003, 1), (6068, 6069, 1), (6071, 6077, 1), (6086, 6086, 1), (6089, 6099, 1),
    (6109, 6109, 1), (6155, 6157, 1), (6159, 6159, 1), (6277, 6278, 1), (6313, 6313, 1),
    (6432, 6434, 1), (6439, 6440, 1), (6450, 6450, 1), (6457, 6459, 1), (6679, 6680, 1),
    (6683, 6683, 1), (6742, 6742, 1), (6744, 6750, 1), (6752, 6754, 2), (6757, 6764, 1),
    (6771, 6780, 1), (6783, 6783, 1), (6832, 6845, 1), (6847, 6862, 1), (6912, 6915, 1),
    (6964, 6964, 1), (6966, 6970, 1), (6972, 6972, 1), (6978, 6978, 1), (7019, 7027, 1),
    (7040, 7041, 1), (7074, 7077, 1), (7080, 7081, 1), (7083, 7085, 1), (7142, 7142, 1),
    (7144, 7145, 1), (7149, 7149, 1), (7151, 7153, 1), (7212, 7219, 1), (7222, 7223, 1),
    (7376, 7378, 1), (7380, 7392, 1), (7394, 7400, 1), (7405, 7405, 1), (7412, 7412, 1),
    (7416, 7417, 1), (7616, 7679, 1), (8400, 8412, 1), (8417, 8417, 1), (8421, 8432, 1),
    (11503, 11505, 1), (11647, 11647, 1), (11744, 11775, 1), (12330, 12333, 1), (12441, 12442, 1),
    (42607, 42607, 1), (42612, 42621, 1), (42654, 42655, 1), (42736, 42737, 1), (43010, 43010, 1),
    (43014, 43014, 1), (43019, 43019, 1), (43045, 43046, 1), (43052, 43052, 1), (43204, 43205, 1),
    (43232, 43249, 1), (43263, 43263, 1), (43302, 43309, 1), (43335, 43345, 1), (43392, 43394, 1),
    (43443, 43443, 1), (43446, 43449, 1), (43452, 43453, 1), (43493, 43493, 1), (43561, 43566, 1),
    (43569, 43570, 1), (43573, 43574, 1), (43587, 43587, 1), (43596, 43596, 1), (43644, 43644, 1),
    (43696, 43696, 1), (43698, 43700, 1), (43703, 43704, 1), (43710, 43711, 1), (43713, 43713, 1),
    (43756, 43757, 1), (43766, 43766, 1), (44005, 44005, 1), (44008, 44008, 1), (44013, 44013, 1),
    (64286, 64286, 1), (65024, 65039, 1), (65056, 65071, 1), (66045, 66045, 1), (66272, 66272, 1),
    (66422, 66426, 1), (68097, 68099, 1), (68101, 68102, 1), (68108, 68111, 1), (68152, 68154, 1),
    (68159, 68159, 1), (68325, 68326, 1), (68900, 68903, 1), (69291, 69292, 1), (69373, 69375, 1),
    (69446, 69456, 1), (69506, 69509, 1), (69633, 69633, 1), (69688, 69702, 1), (69744, 69744, 1),
    (69747, 69748, 1), (69759, 69761, 1), (69811, 69814, 1), (69817, 69818, 1), (69826, 69826, 1),
    (69888, 69890, 1), (69927, 69931, 1), (69933, 69940, 1), (70003, 70003, 1), (70016, 70017, 1),
    (70070, 70078, 1), (70089, 70092, 1), (70095, 70095, 1), (70191, 70193, 1), (70196, 70196, 1),
    (70198, 70199, 1), (70206, 70206, 1), (70209, 70209, 1), (70367, 70367, 1), (70371, 70378, 1),
    (70400, 70401, 1), (70459, 70460, 1), (70464, 70464, 1), (70502, 70508, 1), (70512, 70516, 1),
    (70712, 70719, 1), (70722, 70724, 1), (70726, 70726, 1), (70750, 70750, 1), (70835, 70840, 1),
    (70842, 70842, 1), (70847, 70848, 1), (70850, 70851, 1), (71090, 71093, 1), (71100, 71101, 1),
    (71103, 71104, 1), (71132, 71133, 1), (71219, 71226, 1), (71229, 71229, 1), (71231, 71232, 1),
    (71339, 71341, 2), (71344, 71349, 1), (71351, 71351, 1), (71453, 71455, 1), (71458, 71461, 1),
    (71463, 71467, 1), (71727, 71735, 1), (71737, 71738, 1), (71995, 71996, 1), (71998, 71998, 1),
    (72003, 72003, 1), (72148, 72151, 1), (72154, 72155, 1), (72160, 72160, 1), (72193, 72202, 1),
    (72243, 72248, 1), (72251, 72254, 1), (72263, 72263, 1), (72273, 72278, 1), (72281, 72283, 1),
    (72330, 72342, 1), (72344, 72345, 1), (72752, 72758, 1), (72760, 72765, 1), (72767, 72767, 1),
    (72850, 72871, 1), (72874, 72880, 1), (72882, 72883, 1), (72885, 72886, 1), (73009, 73014, 1),
    (73018, 73018, 1), (73020, 73021, 1), (73023, 73029, 1), (73031, 73031, 1), (73104, 73105, 1),
    (73109, 73111, 2), (73459, 73460, 1), (73472, 73473, 1), (73526, 73530, 1), (73536, 73538, 2),
    (78912, 78912, 1), (78919, 78933, 1), (92912, 92916, 1), (92976, 92982, 1), (94031, 94031, 1),
    (94095, 94098, 1), (94180, 94180, 1), (113821, 113822, 1), (118528, 118573, 1),
    (118576, 118598, 1), (119143, 119145, 1), (119163, 119170, 1), (119173, 119179, 1),
    (119210, 119213, 1), (119362, 119364, 1), (121344, 121398, 1), (121403, 121452, 1),
    (121461, 121461, 1), (121476, 121476, 1), (121499, 121503, 1), (121505, 121519, 1),
    (122880, 122886, 1), (122888, 122904, 1), (122907, 122913, 1), (122915, 122916, 1),
    (122918, 122922, 1), (123023, 123023, 1), (123184, 123190, 1), (123566, 123566, 1),
    (123628, 123631, 1), (124140, 124143, 1), (125136, 125142, 1), (125252, 125258, 1),
    (917760, 917999, 1)]

/-- Marks with a width of their own. -/
def spacingMark : List Run :=
  [(2307, 2307, 1), (2363, 2363, 1), (2366, 2368, 1), (2377, 2380, 1), (2382, 2383, 1),
    (2434, 2435, 1), (2494, 2496, 1), (2503, 2504, 1), (2507, 2508, 1), (2519, 2519, 1),
    (2563, 2563, 1), (2622, 2624, 1), (2691, 2691, 1), (2750, 2752, 1), (2761, 2761, 1),
    (2763, 2764, 1), (2818, 2819, 1), (2878, 2880, 2), (2887, 2888, 1), (2891, 2892, 1),
    (2903, 2903, 1), (3006, 3007, 1), (3009, 3010, 1), (3014, 3016, 1), (3018, 3020, 1),
    (3031, 3031, 1), (3073, 3075, 1), (3137, 3140, 1), (3202, 3203, 1), (3262, 3262, 1),
    (3264, 3268, 1), (3271, 3272, 1), (3274, 3275, 1), (3285, 3286, 1), (3315, 3315, 1),
    (3330, 3331, 1), (3390, 3392, 1), (3398, 3400, 1), (3402, 3404, 1), (3415, 3415, 1),
    (3458, 3459, 1), (3535, 3537, 1), (3544, 3551, 1), (3570, 3571, 1), (3902, 3903, 1),
    (3967, 3967, 1), (4139, 4140, 1), (4145, 4145, 1), (4152, 4152, 1), (4155, 4156, 1),
    (4182, 4183, 1), (4194, 4196, 1), (4199, 4205, 1), (4227, 4228, 1), (4231, 4236, 1),
    (4239, 4239, 1), (4250, 4252, 1), (5909, 5909, 1), (5940, 5940, 1), (6070, 6070, 1),
    (6078, 6085, 1), (6087, 6088, 1), (6435, 6438, 1), (6441, 6443, 1), (6448, 6449, 1),
    (6451, 6456, 1), (6681, 6682, 1), (6741, 6743, 2), (6753, 6753, 1), (6755, 6756, 1),
    (6765, 6770, 1), (6916, 6916, 1), (6965, 6965, 1), (6971, 6971, 1), (6973, 6977, 1),
    (6979, 6980, 1), (7042, 7042, 1), (7073, 7073, 1), (7078, 7079, 1), (7082, 7082, 1),
    (7143, 7143, 1), (7146, 7148, 1), (7150, 7150, 1), (7154, 7155, 1), (7204, 7211, 1),
    (7220, 7221, 1), (7393, 7393, 1), (7415, 7415, 1), (12334, 12335, 1), (43043, 43044, 1),
    (43047, 43047, 1), (43136, 43137, 1), (43188, 43203, 1), (43346, 43347, 1), (43395, 43395, 1),
    (43444, 43445, 1), (43450, 43451, 1), (43454, 43456, 1), (43567, 43568, 1), (43571, 43572, 1),
    (43597, 43597, 1), (43643, 43645, 2), (43755, 43755, 1), (43758, 43759, 1), (43765, 43765, 1),
    (44003, 44004, 1), (44006, 44007, 1), (44009, 44010, 1), (44012, 44012, 1), (69632, 69634, 2),
    (69762, 69762, 1), (69808, 69810, 1), (69815, 69816, 1), (69932, 69932, 1), (69957, 69958, 1),
    (70018, 70018, 1), (70067, 70069, 1), (70079, 70080, 1), (70094, 70094, 1), (70188, 70190, 1),
    (70194, 70195, 1), (70197, 70197, 1), (70368, 70370, 1), (70402, 70403, 1), (70462, 70463, 1),
    (70465, 70468, 1), (70471, 70472, 1), (70475, 70477, 1), (70487, 70487, 1), (70498, 70499, 1),
    (70709, 70711, 1), (70720, 70721, 1), (70725, 70725, 1), (70832, 70834, 1), (70841, 70841, 1),
    (70843, 70846, 1), (70849, 70849, 1), (71087, 71089, 1), (71096, 71099, 1), (71102, 71102, 1),
    (71216, 71218, 1), (71227, 71228, 1), (71230, 71230, 1), (71340, 71340, 1), (71342, 71343, 1),
    (71350, 71350, 1), (71456, 71457, 1), (71462, 71462, 1), (71724, 71726, 1), (71736, 71736, 1),
    (71984, 71989, 1), (71991, 71992, 1), (71997, 71997, 1), (72000, 72002, 2), (72145, 72147, 1),
    (72156, 72159, 1), (72164, 72164, 1), (72249, 72249, 1), (72279, 72280, 1), (72343, 72343, 1),
    (72751, 72751, 1), (72766, 72766, 1), (72873, 72873, 1), (72881, 72881, 1), (72884, 72884, 1),
    (73098, 73102, 1), (73107, 73108, 1), (73110, 73110, 1), (73461, 73462, 1), (73475, 73475, 1),
    (73524, 73525, 1), (73534, 73535, 1), (73537, 73537, 1), (94033, 94087, 1), (94192, 94193, 1),
    (119141, 119142, 1), (119149, 119154, 1)]

/-- Marks around another character. -/
def enclosingMark : List Run :=
  [(1160, 1161, 1), (6846, 6846, 1), (8413, 8416, 1), (8418, 8420, 1), (42608, 42610, 1)]

/-- Numbers that look like letters. -/
def letterNumber : List Run :=
  [(5870, 5872, 1), (8544, 8578, 1), (8581, 8584, 1), (12295, 12295, 1), (12321, 12329, 1),
    (12344, 12346, 1), (42726, 42735, 1), (65856, 65908, 1), (66369, 66369, 1), (66378, 66378, 1),
    (66513, 66517, 1), (74752, 74862, 1)]

/-- Numbers that are neither decimal digits nor letters. -/
def otherNumber : List Run :=
  [(178, 179, 1), (185, 185, 1), (188, 190, 1), (2548, 2553, 1), (2930, 2935, 1), (3056, 3058, 1),
    (3192, 3198, 1), (3416, 3422, 1), (3440, 3448, 1), (3882, 3891, 1), (4969, 4988, 1),
    (6128, 6137, 1), (6618, 6618, 1), (8304, 8304, 1), (8308, 8313, 1), (8320, 8329, 1),
    (8528, 8543, 1), (8585, 8585, 1), (9312, 9371, 1), (9450, 9471, 1), (10102, 10131, 1),
    (11517, 11517, 1), (12690, 12693, 1), (12832, 12841, 1), (12872, 12879, 1), (12881, 12895, 1),
    (12928, 12937, 1), (12977, 12991, 1), (43056, 43061, 1), (65799, 65843, 1), (65909, 65912, 1),
    (65930, 65931, 1), (66273, 66299, 1), (66336, 66339, 1), (67672, 67679, 1), (67705, 67711, 1),
    (67751, 67759, 1), (67835, 67839, 1), (67862, 67867, 1), (68028, 68029, 1), (68032, 68047, 1),
    (68050, 68095, 1), (68160, 68168, 1), (68221, 68222, 1), (68253, 68255, 1), (68331, 68335, 1),
    (68440, 68447, 1), (68472, 68479, 1), (68521, 68527, 1), (68858, 68863, 1), (69216, 69246, 1),
    (69405, 69414, 1), (69457, 69460, 1), (69573, 69579, 1), (69714, 69733, 1), (70113, 70132, 1),
    (71482, 71483, 1), (71914, 71922, 1), (72794, 72812, 1), (73664, 73684, 1), (93019, 93025, 1),
    (93824, 93846, 1), (119488, 119507, 1), (119520, 119539, 1), (119648, 119672, 1),
    (125127, 125135, 1), (126065, 126123, 1), (126125, 126127, 1), (126129, 126132, 1),
    (126209, 126253, 1), (126255, 126269, 1), (127232, 127244, 1)]

/-- Punctuation that joins words. -/
def connectorPunctuation : List Run :=
  [(95, 95, 1), (8255, 8256, 1), (8276, 8276, 1), (65075, 65076, 1), (65101, 65103, 1),
    (65343, 65343, 1)]

/-- Dashes. -/
def dashPunctuation : List Run :=
  [(45, 45, 1), (1418, 1418, 1), (1470, 1470, 1), (5120, 5120, 1), (6150, 6150, 1), (8208, 8213, 1),
    (11799, 11799, 1), (11802, 11802, 1), (11834, 11835, 1), (11840, 11840, 1), (11869, 11869, 1),
    (12316, 12316, 1), (12336, 12336, 1), (12448, 12448, 1), (65073, 65074, 1), (65112, 65112, 1),
    (65123, 65123, 1), (65293, 65293, 1), (69293, 69293, 1)]

/-- Opening brackets. -/
def openPunctuation : List Run :=
  [(40, 40, 1), (91, 91, 1), (123, 123, 1), (3898, 3900, 2), (5787, 5787, 1), (8218, 8218, 1),
    (8222, 8222, 1), (8261, 8261, 1), (8317, 8317, 1), (8333, 8333, 1), (8968, 8970, 2),
    (9001, 9001, 1), (10088, 10100, 2), (10181, 10181, 1), (10214, 10222, 2), (10627, 10647, 2),
    (10712, 10714, 2), (10748, 10748, 1), (11810, 11816, 2), (11842, 11842, 1), (11861, 11867, 2),
    (12296, 12304, 2), (12308, 12314, 2), (12317, 12317, 1), (64831, 64831, 1), (65047, 65047, 1),
    (65077, 65091, 2), (65095, 65095, 1), (65113, 65117, 2), (65288, 65288, 1), (65339, 65339, 1),
    (65371, 65371, 1), (65375, 65375, 1), (65378, 65378, 1)]

/-- Closing brackets. -/
def closePunctuation : List Run :=
  [(41, 41, 1), (93, 93, 1), (125, 125, 1), (3899, 3901, 2), (5788, 5788, 1), (8262, 8262, 1),
    (8318, 8318, 1), (8334, 8334, 1), (8969, 8971, 2), (9002, 9002, 1), (10089, 10101, 2),
    (10182, 10182, 1), (10215, 10223, 2), (10628, 10648, 2), (10713, 10715, 2), (10749, 10749, 1),
    (11811, 11817, 2), (11862, 11868, 2), (12297, 12305, 2), (12309, 12315, 2), (12318, 12319, 1),
    (64830, 64830, 1), (65048, 65048, 1), (65078, 65092, 2), (65096, 65096, 1), (65114, 65118, 2),
    (65289, 65289, 1), (65341, 65341, 1), (65373, 65373, 1), (65376, 65376, 1), (65379, 65379, 1)]

/-- Opening quotation marks. -/
def initialPunctuation : List Run :=
  [(171, 171, 1), (8216, 8216, 1), (8219, 8220, 1), (8223, 8223, 1), (8249, 8249, 1),
    (11778, 11780, 2), (11785, 11785, 1), (11788, 11788, 1), (11804, 11804, 1), (11808, 11808, 1)]

/-- Closing quotation marks. -/
def finalPunctuation : List Run :=
  [(187, 187, 1), (8217, 8217, 1), (8221, 8221, 1), (8250, 8250, 1), (11779, 11781, 2),
    (11786, 11786, 1), (11789, 11789, 1), (11805, 11805, 1), (11809, 11809, 1)]

/-- All other punctuation. -/
def otherPunctuation : List Run :=
  [(33, 35, 1), (37, 39, 1), (42, 44, 2), (46, 47, 1), (58, 59, 1), (63, 64, 1), (92, 92, 1),
    (161, 161, 1), (167, 167, 1), (182, 183, 1), (191, 191, 1), (894, 894, 1), (903, 903, 1),
    (1370, 1375, 1), (1417, 1417, 1), (1472, 1472, 1), (1475, 1475, 1), (1478, 1478, 1),
    (1523, 1524, 1), (1545, 1546, 1), (1548, 1549, 1), (1563, 1563, 1), (1565, 1567, 1),
    (1642, 1645, 1), (1748, 1748, 1), (1792, 1805, 1), (2039, 2041, 1), (2096, 2110, 1),
    (2142, 2142, 1), (2404, 2405, 1), (2416, 2416, 1), (2557, 2557, 1), (2678, 2678, 1),
    (2800, 2800, 1), (3191, 3191, 1), (3204, 3204, 1), (3572, 3572, 1), (3663, 3663, 1),
    (3674, 3675, 1), (3844, 3858, 1), (3860, 3860, 1), (3973, 3973, 1), (4048, 4052, 1),
    (4057, 4058, 1), (4170, 4175, 1), (4347, 4347, 1), (4960, 4968, 1), (5742, 5742, 1),
    (5867, 5869, 1), (5941, 5942, 1), (6100, 6102, 1), (6104, 6106, 1), (6144, 6149, 1),
    (6151, 6154, 1), (6468, 6469, 1), (6686, 6687, 1), (6816, 6822, 1), (6824, 6829, 1),
    (7002, 7008, 1), (7037, 7038, 1), (7164, 7167, 1), (7227, 7231, 1), (7294, 7295, 1),
    (7360, 7367, 1), (7379, 7379, 1), (8214, 8215, 1), (8224, 8231, 1), (8240, 8248, 1),
    (8251, 8254, 1), (8257, 8259, 1), (8263, 8273, 1), (8275, 8275, 1), (8277, 8286, 1),
    (11513, 11516, 1), (11518, 11519, 1), (11632, 11632, 1), (11776, 11777, 1), (11782, 11784, 1),
    (11787, 11787, 1), (11790, 11798, 1), (11800, 11801, 1), (11803, 11803, 1), (11806, 11807, 1),
    (11818, 11822, 1), (11824, 11833, 1), (11836, 11839, 1), (11841, 11841, 1), (11843, 11855, 1),
    (11858, 11860, 1), (12289, 12291, 1), (12349, 12349, 1), (12539, 12539, 1), (42238, 42239, 1),
    (42509, 42511, 1), (42611, 42611, 1), (42622, 42622, 1), (42738, 42743, 1), (43124, 43127, 1),
    (43214, 43215, 1), (43256, 43258, 1), (43260, 43260, 1), (43310, 43311, 1), (43359, 43359, 1),
    (43457, 43469, 1), (43486, 43487, 1), (43612, 43615, 1), (43742, 43743, 1), (43760, 43761, 1),
    (44011, 44011, 1), (65040, 65046, 1), (65049, 65049, 1), (65072, 65072, 1), (65093, 65094, 1),
    (65097, 65100, 1), (65104, 65106, 1), (65108, 65111, 1), (65119, 65121, 1), (65128, 65128, 1),
    (65130, 65131, 1), (65281, 65283, 1), (65285, 65287, 1), (65290, 65292, 2), (65294, 65295, 1),
    (65306, 65307, 1), (65311, 65312, 1), (65340, 65340, 1), (65377, 65377, 1), (65380, 65381, 1),
    (65792, 65794, 1), (66463, 66463, 1), (66512, 66512, 1), (66927, 66927, 1), (67671, 67671, 1),
    (67871, 67871, 1), (67903, 67903, 1), (68176, 68184, 1), (68223, 68223, 1), (68336, 68342, 1),
    (68409, 68415, 1), (68505, 68508, 1), (69461, 69465, 1), (69510, 69513, 1), (69703, 69709, 1),
    (69819, 69820, 1), (69822, 69825, 1), (69952, 69955, 1), (70004, 70005, 1), (70085, 70088, 1),
    (70093, 70093, 1), (70107, 70107, 1), (70109, 70111, 1), (70200, 70205, 1), (70313, 70313, 1),
    (70731, 70735, 1), (70746, 70747, 1), (70749, 70749, 1), (70854, 70854, 1), (71105, 71127, 1),
    (71233, 71235, 1), (71264, 71276, 1), (71353, 71353, 1), (71484, 71486, 1), (71739, 71739, 1),
    (72004, 72006, 1), (72162, 72162, 1), (72255, 72262, 1), (72346, 72348, 1), (72350, 72354, 1),
    (72448, 72457, 1), (72769, 72773, 1), (72816, 72817, 1), (73463, 73464, 1), (73539, 73551, 1),
    (73727, 73727, 1), (74864, 74868, 1), (77809, 77810, 1), (92782, 92783, 1), (92917, 92917, 1),
    (92983, 92987, 1), (92996, 92996, 1), (93847, 93850, 1), (94178, 94178, 1), (113823, 113823, 1),
    (121479, 121483, 1), (125278, 125279, 1)]

/-- Signs of mathematics. -/
def mathSymbol : List Run :=
  [(43, 43, 1), (60, 62, 1), (124, 126, 2), (172, 172, 1), (177, 177, 1), (215, 215, 1),
    (247, 247, 1), (1014, 1014, 1), (1542, 1544, 1), (8260, 8260, 1), (8274, 8274, 1),
    (8314, 8316, 1), (8330, 8332, 1), (8472, 8472, 1), (8512, 8516, 1), (8523, 8523, 1),
    (8592, 8596, 1), (8602, 8603, 1), (8608, 8608, 1), (8611, 8611, 1), (8614, 8614, 1),
    (8622, 8622, 1), (8654, 8655, 1), (8658, 8660, 2), (8692, 8959, 1), (8992, 8993, 1),
    (9084, 9084, 1), (9115, 9139, 1), (9180, 9185, 1), (9655, 9655, 1), (9665, 9665, 1),
    (9720, 9727, 1), (9839, 9839, 1), (10176, 10180, 1), (10183, 10213, 1), (10224, 10239, 1),
    (10496, 10626, 1), (10649, 10711, 1), (10716, 10747, 1), (10750, 11007, 1), (11056, 11076, 1),
    (11079, 11084, 1), (64297, 64297, 1), (65122, 65122, 1), (65124, 65126, 1), (65291, 65291, 1),
    (65308, 65310, 1), (65372, 65374, 2), (65506, 65506, 1), (65513, 65516, 1), (120513, 120513, 1),
    (120539, 120539, 1), (120571, 120571, 1), (120597, 120597, 1), (120629, 120629, 1),
    (120655, 120655, 1), (120687, 120687, 1), (120713, 120713, 1), (120745, 120745, 1),
    (120771, 120771, 1), (126704, 126705, 1)]

/-- Signs of currencies. -/
def currencySymbol : List Run :=
  [(36, 36, 1), (162, 165, 1), (1423, 1423, 1), (1547, 1547, 1), (2046, 2047, 1), (2546, 2547, 1),
    (2555, 2555, 1), (2801, 2801, 1), (3065, 3065, 1), (3647, 3647, 1), (6107, 6107, 1),
    (8352, 8384, 1), (43064, 43064, 1), (65020, 65020, 1), (65129, 65129, 1), (65284, 65284, 1),
    (65504, 65505, 1), (65509, 65510, 1), (73693, 73696, 1), (123647, 123647, 1),
    (126128, 126128, 1)]

/-- Accents that stand alone. -/
def modifierSymbol : List Run :=
  [(94, 96, 2), (168, 168, 1), (175, 175, 1), (180, 180, 1), (184, 184, 1), (706, 709, 1),
    (722, 735, 1), (741, 747, 1), (749, 749, 1), (751, 767, 1), (885, 885, 1), (900, 901, 1),
    (2184, 2184, 1), (8125, 8125, 1), (8127, 8129, 1), (8141, 8143, 1), (8157, 8159, 1),
    (8173, 8175, 1), (8189, 8190, 1), (12443, 12444, 1), (42752, 42774, 1), (42784, 42785, 1),
    (42889, 42890, 1), (43867, 43867, 1), (43882, 43883, 1), (64434, 64450, 1), (65342, 65344, 2),
    (65507, 65507, 1), (127995, 127999, 1)]

/-- All other symbols. -/
def otherSymbol : List Run :=
  [(166, 166, 1), (169, 169, 1), (174, 176, 2), (1154, 1154, 1), (1421, 1422, 1), (1550, 1551, 1),
    (1758, 1758, 1), (1769, 1769, 1), (1789, 1790, 1), (2038, 2038, 1), (2554, 2554, 1),
    (2928, 2928, 1), (3059, 3064, 1), (3066, 3066, 1), (3199, 3199, 1), (3407, 3407, 1),
    (3449, 3449, 1), (3841, 3843, 1), (3859, 3859, 1), (3861, 3863, 1), (3866, 3871, 1),
    (3892, 3896, 2), (4030, 4037, 1), (4039, 4044, 1), (4046, 4047, 1), (4053, 4056, 1),
    (4254, 4255, 1), (5008, 5017, 1), (5741, 5741, 1), (6464, 6464, 1), (6622, 6655, 1),
    (7009, 7018, 1), (7028, 7036, 1), (8448, 8449, 1), (8451, 8454, 1), (8456, 8457, 1),
    (8468, 8468, 1), (8470, 8471, 1), (8478, 8483, 1), (8485, 8489, 2), (8494, 8494, 1),
    (8506, 8507, 1), (8522, 8522, 1), (8524, 8525, 1), (8527, 8527, 1), (8586, 8587, 1),
    (8597, 8601, 1), (8604, 8607, 1), (8609, 8610, 1), (8612, 8613, 1), (8615, 8621, 1),
    (8623, 8653, 1), (8656, 8657, 1), (8659, 8659, 1), (8661, 8691, 1), (8960, 8967, 1),
    (8972, 8991, 1), (8994, 9000, 1), (9003, 9083, 1), (9085, 9114, 1), (9140, 9179, 1),
    (9186, 9254, 1), (9280, 9290, 1), (9372, 9449, 1), (9472, 9654, 1), (9656, 9664, 1),
    (9666, 9719, 1), (9728, 9838, 1), (9840, 10087, 1), (10132, 10175, 1), (10240, 10495, 1),
    (11008, 11055, 1), (11077, 11078, 1), (11085, 11123, 1), (11126, 11157, 1), (11159, 11263, 1),
    (11493, 11498, 1), (11856, 11857, 1), (11904, 11929, 1), (11931, 12019, 1), (12032, 12245, 1),
    (12272, 12283, 1), (12292, 12292, 1), (12306, 12307, 1), (12320, 12320, 1), (12342, 12343, 1),
    (12350, 12351, 1), (12688, 12689, 1), (12694, 12703, 1), (12736, 12771, 1), (12800, 12830, 1),
    (12842, 12871, 1), (12880, 12880, 1), (12896, 12927, 1), (12938, 12976, 1), (12992, 13311, 1),
    (19904, 19967, 1), (42128, 42182, 1), (43048, 43051, 1), (43062, 43063, 1), (43065, 43065, 1),
    (43639, 43641, 1), (64832, 64847, 1), (64975, 64975, 1), (65021, 65023, 1), (65508, 65508, 1),
    (65512, 65512, 1), (65517, 65518, 1), (65532, 65533, 1), (65847, 65855, 1), (65913, 65929, 1),
    (65932, 65934, 1), (65936, 65948, 1), (65952, 65952, 1), (66000, 66044, 1), (67703, 67704, 1),
    (68296, 68296, 1), (71487, 71487, 1), (73685, 73692, 1), (73697, 73713, 1), (92988, 92991, 1),
    (92997, 92997, 1), (113820, 113820, 1), (118608, 118723, 1), (118784, 119029, 1),
    (119040, 119078, 1), (119081, 119140, 1), (119146, 119148, 1), (119171, 119172, 1),
    (119180, 119209, 1), (119214, 119274, 1), (119296, 119361, 1), (119365, 119365, 1),
    (119552, 119638, 1), (120832, 121343, 1), (121399, 121402, 1), (121453, 121460, 1),
    (121462, 121475, 1), (121477, 121478, 1), (123215, 123215, 1), (126124, 126124, 1),
    (126254, 126254, 1), (126976, 127019, 1), (127024, 127123, 1), (127136, 127150, 1),
    (127153, 127167, 1), (127169, 127183, 1), (127185, 127221, 1), (127245, 127405, 1),
    (127462, 127490, 1), (127504, 127547, 1), (127552, 127560, 1), (127568, 127569, 1),
    (127584, 127589, 1), (127744, 127994, 1), (128000, 128727, 1), (128732, 128748, 1),
    (128752, 128764, 1), (128768, 128886, 1), (128891, 128985, 1), (128992, 129003, 1),
    (129008, 129008, 1), (129024, 129035, 1), (129040, 129095, 1), (129104, 129113, 1),
    (129120, 129159, 1), (129168, 129197, 1), (129200, 129201, 1), (129280, 129619, 1),
    (129632, 129645, 1), (129648, 129660, 1), (129664, 129672, 1), (129680, 129725, 1),
    (129727, 129733, 1), (129742, 129755, 1), (129760, 129768, 1), (129776, 129784, 1),
    (129792, 129938, 1), (129940, 129994, 1)]

/-- Spaces of all widths. -/
def spaceSeparator : List Run :=
  [(32, 32, 1), (160, 160, 1), (5760, 5760, 1), (8192, 8202, 1), (8239, 8239, 1), (8287, 8287, 1),
    (12288, 12288, 1)]

/-- Invisible characters that steer the layout. -/
def format : List Run :=
  [(173, 173, 1), (1536, 1541, 1), (1564, 1564, 1), (1757, 1757, 1), (1807, 1807, 1),
    (2192, 2193, 1), (2274, 2274, 1), (6158, 6158, 1), (8203, 8207, 1), (8234, 8238, 1),
    (8288, 8292, 1), (8294, 8303, 1), (65279, 65279, 1), (65529, 65531, 1), (69821, 69821, 1),
    (69837, 69837, 1), (78896, 78911, 1), (113824, 113827, 1), (119155, 119162, 1),
    (917505, 917505, 1), (917536, 917631, 1)]

/-- Code points without an assigned meaning by intent. -/
def privateUse : List Run :=
  [(57344, 63743, 1), (983040, 1048573, 1), (1048576, 1114109, 1)]

/-- Characters that count as capital and are no capital letters. -/
def otherUpper : List Run :=
  [(8544, 8559, 1), (9398, 9423, 1), (127280, 127305, 1), (127312, 127337, 1), (127344, 127369, 1)]

/-- Characters that count as small and are no small letters. -/
def otherLower : List Run :=
  [(170, 170, 1), (186, 186, 1), (688, 696, 1), (704, 705, 1), (736, 740, 1), (837, 837, 1),
    (890, 890, 1), (4348, 4348, 1), (7468, 7530, 1), (7544, 7544, 1), (7579, 7615, 1),
    (8305, 8305, 1), (8319, 8319, 1), (8336, 8348, 1), (8560, 8575, 1), (9424, 9449, 1),
    (11388, 11389, 1), (42652, 42653, 1), (42864, 42864, 1), (42994, 42996, 1), (43000, 43001, 1),
    (43868, 43871, 1), (43881, 43881, 1), (67456, 67456, 1), (67459, 67461, 1), (67463, 67504, 1),
    (67506, 67514, 1), (122928, 122989, 1)]

/-- Characters that count as alphabetic and are neither letters nor letter numbers. -/
def otherAlphabetic : List Run :=
  [(837, 837, 1), (1456, 1469, 1), (1471, 1471, 1), (1473, 1474, 1), (1476, 1477, 1),
    (1479, 1479, 1), (1552, 1562, 1), (1611, 1623, 1), (1625, 1631, 1), (1648, 1648, 1),
    (1750, 1756, 1), (1761, 1764, 1), (1767, 1768, 1), (1773, 1773, 1), (1809, 1809, 1),
    (1840, 1855, 1), (1958, 1968, 1), (2070, 2071, 1), (2075, 2083, 1), (2085, 2087, 1),
    (2089, 2092, 1), (2260, 2271, 1), (2275, 2281, 1), (2288, 2307, 1), (2362, 2363, 1),
    (2366, 2380, 1), (2382, 2383, 1), (2389, 2391, 1), (2402, 2403, 1), (2433, 2435, 1),
    (2494, 2500, 1), (2503, 2504, 1), (2507, 2508, 1), (2519, 2519, 1), (2530, 2531, 1),
    (2561, 2563, 1), (2622, 2626, 1), (2631, 2632, 1), (2635, 2636, 1), (2641, 2641, 1),
    (2672, 2673, 1), (2677, 2677, 1), (2689, 2691, 1), (2750, 2757, 1), (2759, 2761, 1),
    (2763, 2764, 1), (2786, 2787, 1), (2810, 2812, 1), (2817, 2819, 1), (2878, 2884, 1),
    (2887, 2888, 1), (2891, 2892, 1), (2902, 2903, 1), (2914, 2915, 1), (2946, 2946, 1),
    (3006, 3010, 1), (3014, 3016, 1), (3018, 3020, 1), (3031, 3031, 1), (3072, 3076, 1),
    (3134, 3140, 1), (3142, 3144, 1), (3146, 3148, 1), (3157, 3158, 1), (3170, 3171, 1),
    (3201, 3203, 1), (3262, 3268, 1), (3270, 3272, 1), (3274, 3276, 1), (3285, 3286, 1),
    (3298, 3299, 1), (3315, 3315, 1), (3328, 3331, 1), (3390, 3396, 1), (3398, 3400, 1),
    (3402, 3404, 1), (3415, 3415, 1), (3426, 3427, 1), (3457, 3459, 1), (3535, 3540, 1),
    (3542, 3542, 1), (3544, 3551, 1), (3570, 3571, 1), (3633, 3633, 1), (3636, 3642, 1),
    (3661, 3661, 1), (3761, 3761, 1), (3764, 3769, 1), (3771, 3772, 1), (3789, 3789, 1),
    (3953, 3971, 1), (3981, 3991, 1), (3993, 4028, 1), (4139, 4150, 1), (4152, 4152, 1),
    (4155, 4158, 1), (4182, 4185, 1), (4190, 4192, 1), (4194, 4196, 1), (4199, 4205, 1),
    (4209, 4212, 1), (4226, 4237, 1), (4239, 4239, 1), (4250, 4253, 1), (5906, 5907, 1),
    (5938, 5939, 1), (5970, 5971, 1), (6002, 6003, 1), (6070, 6088, 1), (6277, 6278, 1),
    (6313, 6313, 1), (6432, 6443, 1), (6448, 6456, 1), (6679, 6683, 1), (6741, 6750, 1),
    (6753, 6772, 1), (6847, 6848, 1), (6860, 6862, 1), (6912, 6916, 1), (6965, 6979, 1),
    (7040, 7042, 1), (7073, 7081, 1), (7084, 7085, 1), (7143, 7153, 1), (7204, 7222, 1),
    (7655, 7668, 1), (9398, 9449, 1), (11744, 11775, 1), (42612, 42619, 1), (42654, 42655, 1),
    (43010, 43010, 1), (43019, 43019, 1), (43043, 43047, 1), (43136, 43137, 1), (43188, 43203, 1),
    (43205, 43205, 1), (43263, 43263, 1), (43302, 43306, 1), (43335, 43346, 1), (43392, 43395, 1),
    (43444, 43455, 1), (43493, 43493, 1), (43561, 43574, 1), (43587, 43587, 1), (43596, 43597, 1),
    (43643, 43645, 1), (43696, 43696, 1), (43698, 43700, 1), (43703, 43704, 1), (43710, 43710, 1),
    (43755, 43759, 1), (43765, 43765, 1), (44003, 44010, 1), (64286, 64286, 1), (66422, 66426, 1),
    (68097, 68099, 1), (68101, 68102, 1), (68108, 68111, 1), (68900, 68903, 1), (69291, 69292, 1),
    (69632, 69634, 1), (69688, 69701, 1), (69747, 69748, 1), (69760, 69762, 1), (69808, 69816, 1),
    (69826, 69826, 1), (69888, 69890, 1), (69927, 69938, 1), (69957, 69958, 1), (70016, 70018, 1),
    (70067, 70079, 1), (70094, 70095, 1), (70188, 70196, 1), (70199, 70199, 1), (70206, 70206, 1),
    (70209, 70209, 1), (70367, 70376, 1), (70400, 70403, 1), (70462, 70468, 1), (70471, 70472, 1),
    (70475, 70476, 1), (70487, 70487, 1), (70498, 70499, 1), (70709, 70721, 1), (70723, 70725, 1),
    (70832, 70849, 1), (71087, 71093, 1), (71096, 71102, 1), (71132, 71133, 1), (71216, 71230, 1),
    (71232, 71232, 1), (71339, 71349, 1), (71453, 71466, 1), (71724, 71736, 1), (71984, 71989, 1),
    (71991, 71992, 1), (71995, 71996, 1), (72000, 72000, 1), (72002, 72002, 1), (72145, 72151, 1),
    (72154, 72159, 1), (72164, 72164, 1), (72193, 72202, 1), (72245, 72249, 1), (72251, 72254, 1),
    (72273, 72283, 1), (72330, 72343, 1), (72751, 72758, 1), (72760, 72766, 1), (72850, 72871, 1),
    (72873, 72886, 1), (73009, 73014, 1), (73018, 73018, 1), (73020, 73021, 1), (73023, 73025, 1),
    (73027, 73027, 1), (73031, 73031, 1), (73098, 73102, 1), (73104, 73105, 1), (73107, 73110, 1),
    (73459, 73462, 1), (73472, 73473, 1), (73475, 73475, 1), (73524, 73530, 1), (73534, 73536, 1),
    (94031, 94031, 1), (94033, 94087, 1), (94095, 94098, 1), (94192, 94193, 1), (113822, 113822, 1),
    (122880, 122886, 1), (122888, 122904, 1), (122907, 122913, 1), (122915, 122916, 1),
    (122918, 122922, 1), (123023, 123023, 1), (125255, 125255, 1), (127280, 127305, 1),
    (127312, 127337, 1), (127344, 127369, 1)]

/-- Characters of the script Latin. -/
def latin : List Run :=
  [(65, 90, 1), (97, 122, 1), (170, 170, 1), (186, 186, 1), (192, 214, 1), (216, 246, 1),
    (248, 696, 1), (736, 740, 1), (7424, 7461, 1), (7468, 7516, 1), (7522, 7525, 1),
    (7531, 7543, 1), (7545, 7614, 1), (7680, 7935, 1), (8305, 8305, 1), (8319, 8319, 1),
    (8336, 8348, 1), (8490, 8491, 1), (8498, 8498, 1), (8526, 8526, 1), (8544, 8584, 1),
    (11360, 11391, 1), (42786, 42887, 1), (42891, 42954, 1), (42960, 42961, 1), (42963, 42963, 1),
    (42965, 42969, 1), (42994, 43007, 1), (43824, 43866, 1), (43868, 43876, 1), (43878, 43881, 1),
    (64256, 64262, 1), (65313, 65338, 1), (65345, 65370, 1), (67456, 67461, 1), (67463, 67504, 1),
    (67506, 67514, 1), (122624, 122654, 1), (122661, 122666, 1)]

/-- Characters of the script Greek. -/
def greek : List Run :=
  [(880, 883, 1), (885, 887, 1), (890, 893, 1), (895, 895, 1), (900, 900, 1), (902, 902, 1),
    (904, 906, 1), (908, 908, 1), (910, 929, 1), (931, 993, 1), (1008, 1023, 1), (7462, 7466, 1),
    (7517, 7521, 1), (7526, 7530, 1), (7615, 7615, 1), (7936, 7957, 1), (7960, 7965, 1),
    (7968, 8005, 1), (8008, 8013, 1), (8016, 8023, 1), (8025, 8025, 1), (8027, 8027, 1),
    (8029, 8029, 1), (8031, 8061, 1), (8064, 8116, 1), (8118, 8132, 1), (8134, 8147, 1),
    (8150, 8155, 1), (8157, 8175, 1), (8178, 8180, 1), (8182, 8190, 1), (8486, 8486, 1),
    (43877, 43877, 1), (65856, 65934, 1), (65952, 65952, 1), (119296, 119365, 1)]

/-- Characters of the script Cyrillic. -/
def cyrillic : List Run :=
  [(1024, 1156, 1), (1159, 1327, 1), (7296, 7304, 1), (7467, 7467, 1), (7544, 7544, 1),
    (11744, 11775, 1), (42560, 42655, 1), (65070, 65071, 1), (122928, 122989, 1),
    (123023, 123023, 1)]

/-- Characters of the script Han. -/
def han : List Run :=
  [(11904, 11929, 1), (11931, 12019, 1), (12032, 12245, 1), (12293, 12293, 1), (12295, 12295, 1),
    (12321, 12329, 1), (12344, 12347, 1), (13312, 19903, 1), (19968, 40959, 1), (63744, 64109, 1),
    (64112, 64217, 1), (94178, 94179, 1), (94192, 94193, 1), (131072, 173791, 1),
    (173824, 177977, 1), (177984, 178205, 1), (178208, 183969, 1), (183984, 191456, 1),
    (194560, 195101, 1), (196608, 201546, 1), (201552, 205743, 1)]

/-- Characters of the script Hiragana. -/
def hiragana : List Run :=
  [(12353, 12438, 1), (12445, 12447, 1), (110593, 110879, 1), (110898, 110898, 1),
    (110928, 110930, 1), (127488, 127488, 1)]

/-- Characters of the script Katakana. -/
def katakana : List Run :=
  [(12449, 12538, 1), (12541, 12543, 1), (12784, 12799, 1), (13008, 13054, 1), (13056, 13143, 1),
    (65382, 65391, 1), (65393, 65437, 1), (110576, 110579, 1), (110581, 110587, 1),
    (110589, 110590, 1), (110592, 110592, 1), (110880, 110882, 1), (110933, 110933, 1),
    (110948, 110951, 1)]

/-- Characters of the script Hangul. -/
def hangul : List Run :=
  [(4352, 4607, 1), (12334, 12335, 1), (12593, 12686, 1), (12800, 12830, 1), (12896, 12926, 1),
    (43360, 43388, 1), (44032, 55203, 1), (55216, 55238, 1), (55243, 55291, 1), (65440, 65470, 1),
    (65474, 65479, 1), (65482, 65487, 1), (65490, 65495, 1), (65498, 65500, 1)]

/-- Characters of the script Arabic. -/
def arabic : List Run :=
  [(1536, 1540, 1), (1542, 1547, 1), (1549, 1562, 1), (1564, 1566, 1), (1568, 1599, 1),
    (1601, 1610, 1), (1622, 1647, 1), (1649, 1756, 1), (1758, 1791, 1), (1872, 1919, 1),
    (2160, 2190, 1), (2192, 2193, 1), (2200, 2273, 1), (2275, 2303, 1), (64336, 64450, 1),
    (64467, 64829, 1), (64832, 64911, 1), (64914, 64967, 1), (64975, 64975, 1), (65008, 65023, 1),
    (65136, 65140, 1), (65142, 65276, 1), (69216, 69246, 1), (69373, 69375, 1), (126464, 126467, 1),
    (126469, 126495, 1), (126497, 126498, 1), (126500, 126500, 1), (126503, 126503, 1),
    (126505, 126514, 1), (126516, 126519, 1), (126521, 126521, 1), (126523, 126523, 1),
    (126530, 126530, 1), (126535, 126535, 1), (126537, 126537, 1), (126539, 126539, 1),
    (126541, 126543, 1), (126545, 126546, 1), (126548, 126548, 1), (126551, 126551, 1),
    (126553, 126553, 1), (126555, 126555, 1), (126557, 126557, 1), (126559, 126559, 1),
    (126561, 126562, 1), (126564, 126564, 1), (126567, 126570, 1), (126572, 126578, 1),
    (126580, 126583, 1), (126585, 126588, 1), (126590, 126590, 1), (126592, 126601, 1),
    (126603, 126619, 1), (126625, 126627, 1), (126629, 126633, 1), (126635, 126651, 1),
    (126704, 126705, 1)]

/-- Characters of the script Hebrew. -/
def hebrew : List Run :=
  [(1425, 1479, 1), (1488, 1514, 1), (1519, 1524, 1), (64285, 64310, 1), (64312, 64316, 1),
    (64318, 64318, 1), (64320, 64321, 1), (64323, 64324, 1), (64326, 64335, 1)]

/-- Characters of the script Thai. -/
def thai : List Run :=
  [(3585, 3642, 1), (3648, 3675, 1)]

/-- Characters of the script Devanagari. -/
def devanagari : List Run :=
  [(2304, 2384, 1), (2389, 2403, 1), (2406, 2431, 1), (43232, 43263, 1), (72448, 72457, 1)]

end CallAtlas.Text.Category
